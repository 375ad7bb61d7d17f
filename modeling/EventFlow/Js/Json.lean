import EventFlow.Js.Value

namespace EventFlow.Js.Json

/-- A `SyntaxError`; the language leaves its text to the engine. -/
def syntaxError : JsThrow := .error "SyntaxError" "Unexpected token in JSON"

def isJsonSpace (c : Char) : Bool := c = ' ' || c = '\t' || c = '\n' || c = '\r'

def skipSpace (cs : List Char) : List Char := cs.dropWhile isJsonSpace

def hexValue (c : Char) : Option ℕ :=
  if c.isDigit then some (c.toNat - 48)
  else if 'a' ≤ c ∧ c ≤ 'f' then some (c.toNat - 87)
  else if 'A' ≤ c ∧ c ≤ 'F' then some (c.toNat - 55)
  else none

/-- Four hexadecimal digits of a `\u` escape. -/
def hexUnit : List Char → Option (ℕ × List Char)
  | a :: b :: c :: d :: rest => do
    let n ← [a, b, c, d].foldlM (fun acc x => (hexValue x).map (16 * acc + ·)) 0
    some (n, rest)
  | _ => none

/-- The character of a code unit; a high surrogate takes its partner along. A
surrogate on its own reads as the replacement character. -/
def unitChar (n : ℕ) (rest : List Char) : Char × List Char :=
  if 0xD800 ≤ n ∧ n ≤ 0xDBFF then
    match rest with
    | '\\' :: 'u' :: more =>
      match hexUnit more with
      | some (low, tail) =>
        if 0xDC00 ≤ low ∧ low ≤ 0xDFFF then
          (Char.ofNat (0x10000 + (n - 0xD800) * 0x400 + (low - 0xDC00)), tail)
        else ('\uFFFD', rest)
      | none => ('\uFFFD', rest)
    | _ => ('\uFFFD', rest)
  else if 0xDC00 ≤ n ∧ n ≤ 0xDFFF then ('\uFFFD', rest)
  else (Char.ofNat n, rest)

/-- The rest of a string literal after its opening quote. -/
def stringTail : ℕ → List Char → List Char → Option (String × List Char)
  | 0, _, _ | _, _, [] => none
  | fuel + 1, acc, c :: cs =>
    if c = '"' then some (String.ofList acc.reverse, cs)
    else if c.toNat < 0x20 then none
    else if c = '\\' then
      match cs with
      | '"' :: rest => stringTail fuel ('"' :: acc) rest
      | '\\' :: rest => stringTail fuel ('\\' :: acc) rest
      | '/' :: rest => stringTail fuel ('/' :: acc) rest
      | 'b' :: rest => stringTail fuel (Char.ofNat 8 :: acc) rest
      | 'f' :: rest => stringTail fuel (Char.ofNat 12 :: acc) rest
      | 'n' :: rest => stringTail fuel ('\n' :: acc) rest
      | 'r' :: rest => stringTail fuel ('\r' :: acc) rest
      | 't' :: rest => stringTail fuel ('\t' :: acc) rest
      | 'u' :: rest =>
        match hexUnit rest with
        | some (n, tail) => stringTail fuel ((unitChar n tail).1 :: acc) (unitChar n tail).2
        | none => none
      | _ => none
    else stringTail fuel (c :: acc) cs

/-- The characters of a number: sign, integer, fraction and exponent part. -/
def numberLexeme (cs : List Char) : Option (List Char × List Char) :=
  let (sgn, cs) : List Char × List Char := match cs with
    | '-' :: rest => (['-'], rest)
    | rest => ([], rest)
  let whole := cs.takeWhile Char.isDigit
  let cs := cs.dropWhile Char.isDigit
  if whole.isEmpty || (whole.head? = some '0' && 1 < whole.length) then none
  else do
    let (frac, cs) ← match cs with
      | '.' :: rest =>
        if (rest.takeWhile Char.isDigit).isEmpty then none
        else some ('.' :: rest.takeWhile Char.isDigit, rest.dropWhile Char.isDigit)
      | rest => some ([], rest)
    let (expo, cs) ← match cs with
      | e :: rest =>
        if e = 'e' ∨ e = 'E' then
          let (s, ds) : List Char × List Char := match rest with
            | '+' :: ds => (['+'], ds)
            | '-' :: ds => (['-'], ds)
            | ds => ([], ds)
          if (ds.takeWhile Char.isDigit).isEmpty then none
          else some (e :: s ++ ds.takeWhile Char.isDigit, ds.dropWhile Char.isDigit)
        else some ([], e :: rest)
      | [] => some ([], [])
    some (sgn ++ whole ++ frac ++ expo, cs)

mutual

/-- One JSON value. A later key replaces an earlier one in its place. -/
def value : ℕ → List Char → Option (JsVal × List Char)
  | 0, _ => none
  | fuel + 1, cs =>
    match skipSpace cs with
    | 'n' :: 'u' :: 'l' :: 'l' :: rest => some (.null, rest)
    | 't' :: 'r' :: 'u' :: 'e' :: rest => some (.bool true, rest)
    | 'f' :: 'a' :: 'l' :: 's' :: 'e' :: rest => some (.bool false, rest)
    | '"' :: rest => (stringTail (rest.length + 1) [] rest).map fun p => (.str p.1, p.2)
    | '[' :: rest =>
      match skipSpace rest with
      | ']' :: tail => some (.arr [], tail)
      | _ => elements fuel [] rest
    | '{' :: rest =>
      match skipSpace rest with
      | '}' :: tail => some (.obj [], tail)
      | _ => members fuel [] rest
    | rest =>
      match numberLexeme rest with
      | some (lexeme, tail) => some (.num (numericLiteral lexeme), tail)
      | none => none

def elements : ℕ → List JsVal → List Char → Option (JsVal × List Char)
  | 0, _, _ => none
  | fuel + 1, acc, cs =>
    match value fuel cs with
    | none => none
    | some (v, rest) =>
      match skipSpace rest with
      | ',' :: tail => elements fuel (v :: acc) tail
      | ']' :: tail => some (.arr (v :: acc).reverse, tail)
      | _ => none

def members : ℕ → List (String × JsVal) → List Char → Option (JsVal × List Char)
  | 0, _, _ => none
  | fuel + 1, acc, cs =>
    match skipSpace cs with
    | '"' :: rest =>
      match stringTail (rest.length + 1) [] rest with
      | none => none
      | some (key, rest) =>
        match skipSpace rest with
        | ':' :: rest =>
          match value fuel rest with
          | none => none
          | some (v, rest) =>
            match skipSpace rest with
            | ',' :: tail => members fuel (setKey key v acc) tail
            | '}' :: tail => some (.obj (setKey key v acc), tail)
            | _ => none
        | _ => none
    | _ => none

end

/-- `JSON.parse`. -/
def parse (text : String) : Except JsThrow JsVal :=
  match value (2 * text.length + 1) text.toList with
  | some (v, rest) => if (skipSpace rest).isEmpty then .ok v else .error syntaxError
  | none => .error syntaxError

theorem error_of_parse {text : String} {e : JsThrow} (h : parse text = .error e) :
    e = syntaxError := by
  unfold parse at h
  split at h
  · split_ifs at h
    exact (Except.error.inj h).symm
  · exact (Except.error.inj h).symm

example : (parse "\x7b\"a\": [1, 2.5e1, \"x\\u0041\"], \"b\": \x7b\x7d \x7d ").isOk = true := by
  decide +kernel

end EventFlow.Js.Json
