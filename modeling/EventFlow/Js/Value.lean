import EventFlow.Js.Text

namespace EventFlow.Js

/-- The values that reach the handlers: what JSON can carry, and `undefined`. -/
inductive JsVal where
  | undefined
  | null
  | bool (b : Bool)
  | num (n : Number)
  | str (s : String)
  | arr (xs : List JsVal)
  | obj (fields : List (String × JsVal))

/-- What a `throw` carries: an `Error`, an `EventValidationError` with its
details, or any other value. -/
inductive JsThrow where
  | error (name message : String)
  | validation (message : String) (details : List String)
  | value (v : JsVal)

section Dict

variable {α : Type}

/-- `o[key] = v` on the own properties of an object, in insertion order. -/
def setKey (key : String) (v : α) : List (String × α) → List (String × α)
  | [] => [(key, v)]
  | (k, u) :: rest => if k = key then (k, v) :: rest else (k, u) :: setKey key v rest

/-- `{ ...a, ...b }`. -/
def spread (a b : List (String × α)) : List (String × α) :=
  b.foldl (fun acc entry => setKey entry.1 entry.2 acc) a

theorem lookup_cons_ite (k k' : String) (v : α) (d : List (String × α)) :
    ((k', v) :: d).lookup k = if k = k' then some v else d.lookup k := by
  rw [List.lookup_cons, beq_eq_decide]
  by_cases h : k = k' <;> simp [h]

theorem lookup_eq_none_of_notMem {k : String} {d : List (String × α)}
    (h : k ∉ d.map Prod.fst) : d.lookup k = none :=
  List.lookup_eq_none_iff.mpr fun p hp => by
    simpa using fun heq : k = p.1 => h (heq ▸ List.mem_map_of_mem hp)

theorem lookup_setKey (k key : String) (v : α) (d : List (String × α)) :
    (setKey key v d).lookup k = if k = key then some v else d.lookup k := by
  induction d with
  | nil => simp [setKey, lookup_cons_ite]
  | cons entry rest ih =>
    obtain ⟨k', u⟩ := entry
    by_cases hk : k' = key
    · subst hk
      rw [setKey, if_pos rfl, lookup_cons_ite, lookup_cons_ite]
      split_ifs <;> rfl
    · rw [setKey, if_neg hk, lookup_cons_ite, lookup_cons_ite, ih]
      by_cases hkk : k = k'
      · simp [hkk, hk]
      · simp [hkk]

/-- A key of the second object wins; the others keep their value. -/
theorem lookup_spread (k : String) (a b : List (String × α)) (hb : (b.map Prod.fst).Nodup) :
    (spread a b).lookup k = (b.lookup k).or (a.lookup k) := by
  induction b generalizing a with
  | nil => simp [spread]
  | cons entry rest ih =>
    obtain ⟨key, v⟩ := entry
    obtain ⟨hnotin, hrest⟩ := List.nodup_cons.mp hb
    have hstep : spread a ((key, v) :: rest) = spread (setKey key v a) rest := rfl
    rw [hstep, ih _ hrest, lookup_setKey, lookup_cons_ite]
    by_cases hk : k = key
    · subst hk
      simp [lookup_eq_none_of_notMem hnotin]
    · simp [hk]

theorem mem_keys_setKey {k key : String} {v : α} {d : List (String × α)} :
    k ∈ (setKey key v d).map Prod.fst ↔ k = key ∨ k ∈ d.map Prod.fst := by
  induction d with
  | nil => simp [setKey]
  | cons entry rest ih =>
    obtain ⟨k', u⟩ := entry
    by_cases hk : k' = key
    · subst hk
      simp [setKey]
    · rw [setKey, if_neg hk, List.map_cons, List.mem_cons, ih, List.map_cons, List.mem_cons]
      exact or_left_comm

theorem nodup_setKey {key : String} {v : α} {d : List (String × α)}
    (hd : (d.map Prod.fst).Nodup) : ((setKey key v d).map Prod.fst).Nodup := by
  induction d with
  | nil => simp [setKey]
  | cons entry rest ih =>
    obtain ⟨k', u⟩ := entry
    obtain ⟨hnotin, hrest⟩ := List.nodup_cons.mp hd
    by_cases hk : k' = key
    · rwa [setKey, if_pos hk]
    · rw [setKey, if_neg hk, List.map_cons]
      refine List.nodup_cons.mpr ⟨fun hmem => ?_, ih hrest⟩
      rcases mem_keys_setKey.mp hmem with h | h
      · exact hk h
      · exact hnotin h

theorem nodup_spread {a b : List (String × α)} (ha : (a.map Prod.fst).Nodup) :
    ((spread a b).map Prod.fst).Nodup := by
  induction b generalizing a with
  | nil => exact ha
  | cons entry rest ih => exact ih (nodup_setKey ha)

theorem setKey_of_notMem {key : String} (v : α) {d : List (String × α)}
    (h : key ∉ d.map Prod.fst) : setKey key v d = d ++ [(key, v)] := by
  induction d with
  | nil => rfl
  | cons entry rest ih =>
    obtain ⟨k, u⟩ := entry
    rw [List.map_cons, List.mem_cons, not_or] at h
    rw [setKey, if_neg (Ne.symm h.1), ih h.2, List.cons_append]

/-- Keys that are new come last. -/
theorem spread_of_disjoint {a b : List (String × α)} (hb : (b.map Prod.fst).Nodup)
    (h : ∀ k ∈ b.map Prod.fst, k ∉ a.map Prod.fst) : spread a b = a ++ b := by
  induction b generalizing a with
  | nil => exact (List.append_nil a).symm
  | cons entry rest ih =>
    obtain ⟨key, v⟩ := entry
    obtain ⟨hnotin, hrest⟩ := List.nodup_cons.mp hb
    have hstep : spread a ((key, v) :: rest) = spread (setKey key v a) rest := rfl
    have hnew : key ∉ a.map Prod.fst := h key List.mem_cons_self
    rw [hstep, setKey_of_notMem v hnew, ih hrest, List.append_assoc, List.singleton_append]
    intro k hk hmem
    rw [List.map_append, List.mem_append] at hmem
    rcases hmem with hold | hkey
    · exact h k (List.mem_cons_of_mem _ hk) hold
    · rw [List.mem_singleton.mp hkey] at hk
      exact hnotin hk

theorem setKey_of_lookup {key : String} {v : α} {d : List (String × α)}
    (h : d.lookup key = some v) : setKey key v d = d := by
  induction d with
  | nil => simp at h
  | cons entry rest ih =>
    obtain ⟨k, u⟩ := entry
    rw [lookup_cons_ite] at h
    by_cases hk : k = key
    · subst hk
      rw [if_pos rfl] at h
      rw [setKey, if_pos rfl, Option.some.inj h]
    · rw [if_neg (Ne.symm hk)] at h
      rw [setKey, if_neg hk, ih h]

/-- Entries that are there already change nothing. -/
theorem spread_of_lookup {a b : List (String × α)}
    (h : ∀ entry ∈ b, a.lookup entry.1 = some entry.2) : spread a b = a := by
  induction b with
  | nil => rfl
  | cons entry rest ih =>
    have hstep : spread a (entry :: rest) = spread (setKey entry.1 entry.2 a) rest := rfl
    rw [hstep, setKey_of_lookup (h entry List.mem_cons_self)]
    exact ih fun entry' hentry' => h entry' (List.mem_cons_of_mem _ hentry')

theorem lookup_of_mem {a : List (String × α)} (ha : (a.map Prod.fst).Nodup) {entry : String × α}
    (h : entry ∈ a) : a.lookup entry.1 = some entry.2 := by
  induction a with
  | nil => cases h
  | cons first rest ih =>
    obtain ⟨hnotin, hrest⟩ := List.nodup_cons.mp ha
    rw [lookup_cons_ite]
    rcases List.mem_cons.mp h with rfl | hmem
    · rw [if_pos rfl]
    · have hne : entry.1 ≠ first.1 := fun heq => hnotin (heq ▸ List.mem_map_of_mem hmem)
      rw [if_neg hne, ih hrest hmem]

/-- New keys over an object, and all of it over the object once more. -/
theorem spread_spread {a b : List (String × α)} (ha : (a.map Prod.fst).Nodup)
    (hb : (b.map Prod.fst).Nodup) (h : ∀ k ∈ b.map Prod.fst, k ∉ a.map Prod.fst) :
    spread a (spread a b) = a ++ b := by
  have hsplit : spread a (a ++ b) = spread (spread a a) b := List.foldl_append
  rw [spread_of_disjoint hb h, hsplit, spread_of_lookup fun entry hentry => lookup_of_mem ha hentry,
    spread_of_disjoint hb h]

end Dict

namespace JsVal

/-- Own property of an object; anything else has none of the names read here. -/
def get (v : JsVal) (key : String) : JsVal :=
  match v with
  | .obj fields => (fields.lookup key).getD .undefined
  | _ => .undefined

/-- `key in v` on an object or array. -/
def has (v : JsVal) (key : String) : Bool :=
  match v with
  | .obj fields => (fields.lookup key).isSome
  | _ => false

def isNullish : JsVal → Bool
  | .undefined | .null => true
  | _ => false

/-- `v && typeof v === 'object'`. -/
def isObject : JsVal → Bool
  | .arr _ | .obj _ => true
  | _ => false

def truthy : JsVal → Bool
  | .undefined | .null => false
  | .bool b => b
  | .num n => !(n.isNaN || n.eq 0)
  | .str s => s ≠ ""
  | .arr _ | .obj _ => true

/-- `===` where one side is a primitive; two references are never compared. -/
def strictEq : JsVal → JsVal → Bool
  | .undefined, .undefined | .null, .null => true
  | .bool a, .bool b => a == b
  | .num a, .num b => a.eq b
  | .str a, .str b => a == b
  | _, _ => false

/-- How the two nullish values stand in the text of an error. -/
def nullishText : JsVal → String
  | .null => "null"
  | _ => "undefined"

/-- `v.key`. -/
def prop (v : JsVal) (key : String) : Except JsThrow JsVal :=
  if v.isNullish then
    .error (.error "TypeError"
      ("Cannot read properties of " ++ v.nullishText ++ " (reading '" ++ key ++ "')"))
  else .ok (v.get key)

/-- `const { key } = v`, with `v` written `name` in the source. -/
def destructure (v : JsVal) (key name : String) : Except JsThrow JsVal :=
  if v.isNullish then
    .error (.error "TypeError"
      ("Cannot destructure property '" ++ key ++ "' of '" ++ name ++ "' as it is " ++
        v.nullishText ++ "."))
  else .ok (v.get key)

/-- The string a value is declared to be. -/
def asStr : JsVal → String
  | .str s => s
  | _ => ""

def asNum : JsVal → Number
  | .num n => n
  | _ => .nan

def asArr : JsVal → List JsVal
  | .arr xs => xs
  | _ => []

def stringOrUndefined : Option String → JsVal
  | some s => .str s
  | none => .undefined

section Equality

mutual

/-- Whether two values are built alike. -/
def same : JsVal → JsVal → Bool
  | .undefined, .undefined | .null, .null => true
  | .bool a, .bool b => a = b
  | .num a, .num b => a = b
  | .str a, .str b => a = b
  | .arr xs, .arr ys => sameList xs ys
  | .obj fs, .obj gs => sameFields fs gs
  | _, _ => false

def sameList : List JsVal → List JsVal → Bool
  | [], [] => true
  | x :: xs, y :: ys => x.same y && sameList xs ys
  | _, _ => false

def sameFields : List (String × JsVal) → List (String × JsVal) → Bool
  | [], [] => true
  | (k, v) :: fs, (l, u) :: gs => k = l && v.same u && sameFields fs gs
  | _, _ => false

end

mutual

theorem same_iff : ∀ v u : JsVal, v.same u = true ↔ v = u
  | .undefined, u | .null, u | .bool _, u | .num _, u | .str _, u => by cases u <;> simp [same]
  | .arr xs, u => by
    cases u with
    | arr ys => rw [same, sameList_iff xs ys, JsVal.arr.injEq]
    | _ => simp [same]
  | .obj fs, u => by
    cases u with
    | obj gs => rw [same, sameFields_iff fs gs, JsVal.obj.injEq]
    | _ => simp [same]

theorem sameList_iff : ∀ xs ys : List JsVal, sameList xs ys = true ↔ xs = ys
  | [], ys => by cases ys <;> simp [sameList]
  | x :: xs, ys => by
    cases ys with
    | nil => simp [sameList]
    | cons y ys => rw [sameList, Bool.and_eq_true, same_iff x y, sameList_iff xs ys, List.cons.injEq]

theorem sameFields_iff : ∀ fs gs : List (String × JsVal), sameFields fs gs = true ↔ fs = gs
  | [], gs => by cases gs <;> simp [sameFields]
  | (k, v) :: fs, gs => by
    cases gs with
    | nil => simp [sameFields]
    | cons g gs =>
      obtain ⟨l, u⟩ := g
      rw [sameFields, Bool.and_eq_true, Bool.and_eq_true, same_iff v u, sameFields_iff fs gs,
        List.cons.injEq, Prod.mk.injEq, decide_eq_true_eq]

end

instance : DecidableEq JsVal := fun v u => decidable_of_iff (v.same u = true) (same_iff v u)

deriving instance DecidableEq for JsThrow

end Equality

section ToText

mutual

/-- `String(v)`, also what a template literal does to `v`. An own `toString` that
came from JSON is no function, so such an object has no primitive value. -/
def toText : JsVal → Except JsThrow String
  | .undefined => .ok "undefined"
  | .null => .ok "null"
  | .bool b => .ok (if b then "true" else "false")
  | .num n => .ok n.toText
  | .str s => .ok s
  | .arr xs => (elementTexts xs).map (",".intercalate ·)
  | .obj fields =>
    if (fields.lookup "toString").isSome then
      .error (.error "TypeError" "Cannot convert object to primitive value")
    else .ok "[object Object]"

def elementTexts : List JsVal → Except JsThrow (List String)
  | [] => .ok []
  | x :: xs =>
    match if x.isNullish then .ok "" else x.toText with
    | .error e => .error e
    | .ok t => (elementTexts xs).map (t :: ·)

end

/-- Whether a template literal can hold the value. -/
def printable (v : JsVal) : Bool := v.toText.isOk

/-- The interpolations of a log line, evaluated; its text goes nowhere else. -/
def logLine : List JsVal → Except JsThrow Unit
  | [] => .ok ()
  | v :: vs => match v.toText with
    | .ok _ => logLine vs
    | .error e => .error e

@[simp] theorem printable_str (s : String) : (str s).printable = true := rfl

mutual

/-- Whatever has no text throws an `Error`. -/
theorem error_of_toText : ∀ (v : JsVal) {e : JsThrow}, v.toText = .error e →
    ∃ name message, e = .error name message
  | .undefined, _, h | .null, _, h | .bool _, _, h | .num _, _, h | .str _, _, h => by
    simp [toText] at h
  | .arr xs, e, h => by
    rw [toText] at h
    cases hx : elementTexts xs with
    | ok ts => simp [hx, Except.map] at h
    | error e' =>
      rw [hx] at h
      obtain rfl := Except.error.inj h
      exact error_of_elementTexts xs hx
  | .obj fields, _, h => by
    rw [toText] at h
    split_ifs at h
    exact ⟨_, _, (Except.error.inj h).symm⟩

theorem error_of_elementTexts : ∀ (xs : List JsVal) {e : JsThrow}, elementTexts xs = .error e →
    ∃ name message, e = .error name message
  | [], _, h => by simp [elementTexts] at h
  | x :: xs, e, h => by
    rw [elementTexts] at h
    split at h
    · next e' he =>
      obtain rfl := Except.error.inj h
      split_ifs at he
      exact error_of_toText x he
    · cases hx : elementTexts xs with
      | ok ts => simp [hx, Except.map] at h
      | error e' =>
        rw [hx] at h
        obtain rfl := Except.error.inj h
        exact error_of_elementTexts xs hx

end

theorem error_of_logLine {vs : List JsVal} {e : JsThrow} (h : logLine vs = .error e) :
    ∃ name message, e = .error name message := by
  induction vs with
  | nil => cases h
  | cons v vs ih =>
    rw [logLine] at h
    cases hv : v.toText with
    | ok t =>
      rw [hv] at h
      exact ih h
    | error e' =>
      rw [hv] at h
      obtain rfl := Except.error.inj h
      exact error_of_toText v hv

theorem logLine_eq_ok {vs : List JsVal} :
    logLine vs = .ok () ↔ ∀ v ∈ vs, v.printable = true := by
  induction vs with
  | nil => simp [logLine]
  | cons v vs ih =>
    rw [logLine, List.forall_mem_cons, printable]
    cases v.toText <;> simp [Except.isOk, Except.toBool, ih]

theorem exists_logLine_eq_ok {vs : List JsVal} :
    (∃ u, logLine vs = .ok u) ↔ ∀ v ∈ vs, v.printable = true := by
  rw [← logLine_eq_ok]
  constructor
  · rintro ⟨_, h⟩
    exact h
  · exact fun h => ⟨(), h⟩

end ToText

section Wire

mutual

/-- `JSON.parse(JSON.stringify(v))`, what the far side reads. -/
def wire : JsVal → JsVal
  | .undefined => .null
  | .null => .null
  | .bool b => .bool b
  | .num n => if n.isFinite then .num n else .null
  | .str s => .str s
  | .arr xs => .arr (wireList xs)
  | .obj fields => .obj (wireFields fields)

def wireList : List JsVal → List JsVal
  | [] => []
  | x :: xs => x.wire :: wireList xs

def wireFields : List (String × JsVal) → List (String × JsVal)
  | [] => []
  | (_, .undefined) :: rest => wireFields rest
  | (k, v) :: rest => (k, v.wire) :: wireFields rest

end

mutual

/-- A value that JSON text can denote. -/
def isJson : JsVal → Bool
  | .undefined => false
  | .null | .bool _ | .str _ => true
  | .num n => n.isFinite
  | .arr xs => areJson xs
  | .obj fields => areJsonFields fields

def areJson : List JsVal → Bool
  | [] => true
  | x :: xs => x.isJson && areJson xs

def areJsonFields : List (String × JsVal) → Bool
  | [] => true
  | (_, v) :: rest => v.isJson && areJsonFields rest

end

mutual

/-- JSON values travel unchanged. -/
theorem wire_of_isJson : ∀ v : JsVal, v.isJson = true → v.wire = v
  | .undefined, h => by simp [isJson] at h
  | .null, _ => rfl
  | .bool _, _ => rfl
  | .num n, h => by simp only [isJson] at h; simp [wire, h]
  | .str _, _ => rfl
  | .arr xs, h => by rw [wire, wireList_of_areJson xs (by simpa [isJson] using h)]
  | .obj fields, h => by rw [wire, wireFields_of_areJson fields (by simpa [isJson] using h)]

theorem wireList_of_areJson : ∀ xs : List JsVal, areJson xs = true → wireList xs = xs
  | [], _ => rfl
  | x :: xs, h => by
    simp only [areJson, Bool.and_eq_true] at h
    rw [wireList, wire_of_isJson x h.1, wireList_of_areJson xs h.2]

theorem wireFields_of_areJson :
    ∀ fields : List (String × JsVal), areJsonFields fields = true → wireFields fields = fields
  | [], _ => rfl
  | (k, v) :: rest, h => by
    simp only [areJsonFields, Bool.and_eq_true] at h
    have hv := wire_of_isJson v h.1
    have hrest := wireFields_of_areJson rest h.2
    cases v <;> simp_all [wireFields, isJson]

end

mutual

/-- What arrives is JSON. -/
theorem isJson_wire : ∀ v : JsVal, v.wire.isJson = true
  | .undefined | .null | .bool _ | .str _ => rfl
  | .num n => by
    unfold wire
    split_ifs with h
    · simpa [isJson] using h
    · rfl
  | .arr xs => by simpa [wire, isJson] using areJson_wireList xs
  | .obj fields => by simpa [wire, isJson] using areJsonFields_wireFields fields

theorem areJson_wireList : ∀ xs : List JsVal, areJson (wireList xs) = true
  | [] => rfl
  | x :: xs => by simp [wireList, areJson, isJson_wire x, areJson_wireList xs]

theorem areJsonFields_wireFields :
    ∀ fields : List (String × JsVal), areJsonFields (wireFields fields) = true
  | [] => rfl
  | (k, v) :: rest => by
    have hv := isJson_wire v
    have hrest := areJsonFields_wireFields rest
    cases v <;> simp_all [wireFields, areJsonFields]

end

theorem lookup_wireFields (key : String) (fields : List (String × JsVal))
    (hnd : (fields.map Prod.fst).Nodup) :
    (wireFields fields).lookup key =
      match fields.lookup key with
      | none => none
      | some .undefined => none
      | some v => some v.wire := by
  induction fields with
  | nil => rfl
  | cons entry rest ih =>
    obtain ⟨k, v⟩ := entry
    obtain ⟨hnotin, hrest⟩ := List.nodup_cons.mp hnd
    rw [lookup_cons_ite]
    by_cases hk : key = k
    · subst hk
      have htail := ih hrest
      rw [lookup_eq_none_of_notMem hnotin] at htail
      cases v <;> simp [wireFields, htail]
    · cases v <;> simp [wireFields, lookup_cons_ite, hk, ih hrest]

/-- A field that is present travels under its name. -/
theorem lookup_wireFields_some {key : String} {v : JsVal} {fields : List (String × JsVal)}
    (h : fields.lookup key = some v) (hv : v ≠ .undefined) :
    (wireFields fields).lookup key = some v.wire := by
  induction fields with
  | nil => simp at h
  | cons entry rest ih =>
    obtain ⟨k, u⟩ := entry
    rw [lookup_cons_ite] at h
    by_cases hk : key = k
    · rw [if_pos hk] at h
      obtain rfl := Option.some.inj h
      cases u <;> first | exact absurd rfl hv | simp [wireFields, hk]
    · rw [if_neg hk] at h
      cases u <;> simp [wireFields, lookup_cons_ite, hk, ih h]

theorem get_wire {v : JsVal} {key : String} (h : v.get key ≠ .undefined) :
    v.wire.get key = (v.get key).wire := by
  cases v with
  | obj fields =>
    cases hl : fields.lookup key with
    | none => simp [get, hl] at h
    | some u =>
      have hu : u ≠ .undefined := by simpa [get, hl] using h
      simp [wire, get, hl, lookup_wireFields_some hl hu]
  | _ => exact absurd rfl h

theorem wire_ne_undefined (v : JsVal) : v.wire ≠ .undefined := by
  intro hu
  have hjson := isJson_wire v
  rw [hu] at hjson
  cases hjson

theorem get_wire_of_eq {v u : JsVal} {key : String} (h : v.get key = u) (hu : u ≠ .undefined) :
    v.wire.get key = u.wire := by
  rw [get_wire (by rwa [h]), h]

/-- A string field arrives as it was sent. -/
theorem get_wire_str {v : JsVal} {key s : String} (h : v.get key = .str s) :
    v.wire.get key = .str s := by
  rw [get_wire (by simp [h]), h, wire]

/-- So does a string one level down. -/
theorem get_get_wire_str {v : JsVal} {key key' s : String} (h : (v.get key).get key' = .str s) :
    (v.wire.get key).get key' = .str s := by
  have hne : v.get key ≠ .undefined := by
    intro hu
    rw [hu] at h
    cases h
  rw [get_wire hne]
  exact get_wire_str h

/-- A field that JSON can carry arrives as it was sent. -/
theorem get_wire_of_isJson {v : JsVal} {key : String} (h : (v.get key).isJson = true) :
    v.wire.get key = v.get key := by
  have hne : v.get key ≠ .undefined := by
    intro hu
    simp [hu, isJson] at h
  rw [get_wire hne, wire_of_isJson _ h]

theorem wireList_eq_map (xs : List JsVal) : wireList xs = xs.map wire := by
  induction xs with
  | nil => rfl
  | cons x xs ih => rw [wireList, ih, List.map_cons]

@[simp] theorem isObject_wire (v : JsVal) : v.wire.isObject = v.isObject := by
  cases v with
  | num n =>
    rw [wire]
    split_ifs <;> rfl
  | _ => rfl

/-- The own property names of an object. -/
def keys : JsVal → List String
  | .obj fields => fields.map Prod.fst
  | _ => []

theorem keys_wireFields_sublist (fields : List (String × JsVal)) :
    List.Sublist ((wireFields fields).map Prod.fst) (fields.map Prod.fst) := by
  induction fields with
  | nil => exact List.Sublist.refl _
  | cons entry rest ih =>
    obtain ⟨k, v⟩ := entry
    cases v with
    | undefined => exact ih.cons _
    | _ => exact ih.cons_cons _

theorem printable_arr (xs : List JsVal) : (arr xs).printable = (elementTexts xs).isOk := by
  rw [printable, toText]
  cases elementTexts xs <;> rfl

theorem printable_obj (fields : List (String × JsVal)) :
    (obj fields).printable = !(fields.lookup "toString").isSome := by
  rw [printable, toText]
  cases (fields.lookup "toString").isSome <;> rfl

theorem isOk_elementTexts_cons (x : JsVal) (xs : List JsVal) :
    (elementTexts (x :: xs)).isOk = ((x.isNullish || x.printable) && (elementTexts xs).isOk) := by
  rw [elementTexts, printable]
  cases x.isNullish <;> cases x.toText <;> cases elementTexts xs <;> rfl

theorem isNullish_wire {v : JsVal} (h : v.isNullish = true) : v.wire.isNullish = true := by
  cases v with
  | undefined | null => rfl
  | _ => cases h

theorem truthy_of_wire {v : JsVal} (h : v.wire.truthy = true) : v.truthy = true := by
  cases v with
  | undefined => cases h
  | num n =>
    rw [wire] at h
    split_ifs at h
    · exact h
    · cases h
  | _ => exact h

mutual

/-- What can be printed can be printed after the trip. -/
theorem printable_wire : ∀ v : JsVal, v.printable = true → v.wire.printable = true
  | .undefined, _ | .null, _ | .bool _, _ | .str _, _ => rfl
  | .num n, _ => by
    unfold wire
    split_ifs <;> rfl
  | .arr xs, h => by
    rw [printable_arr] at h
    rw [wire, printable_arr]
    exact isOk_elementTexts_wireList xs h
  | .obj fields, h => by
    rw [printable_obj, Bool.not_eq_true'] at h
    rw [wire, printable_obj, Bool.not_eq_true']
    by_contra hsome
    rw [Bool.not_eq_false, List.lookup_isSome_iff] at hsome
    obtain ⟨entry, hentry, hkey⟩ := hsome
    have hmem : entry.1 ∈ fields.map Prod.fst :=
      (keys_wireFields_sublist fields).subset (List.mem_map_of_mem hentry)
    obtain ⟨own, hown, heq⟩ := List.mem_map.mp hmem
    have hlookup : (fields.lookup "toString").isSome = true :=
      List.lookup_isSome_iff.mpr ⟨own, hown, by rwa [heq]⟩
    rw [hlookup] at h
    cases h

theorem isOk_elementTexts_wireList : ∀ xs : List JsVal, (elementTexts xs).isOk = true →
    (elementTexts (wireList xs)).isOk = true
  | [], _ => rfl
  | x :: xs, h => by
    rw [isOk_elementTexts_cons, Bool.and_eq_true, Bool.or_eq_true] at h
    obtain ⟨hx, hxs⟩ := h
    rw [wireList, isOk_elementTexts_cons, Bool.and_eq_true, Bool.or_eq_true]
    refine ⟨?_, isOk_elementTexts_wireList xs hxs⟩
    rcases hx with hnull | hprint
    · exact .inl (isNullish_wire hnull)
    · exact .inr (printable_wire x hprint)

end

theorem nodup_keys_wire {v : JsVal} (h : v.keys.Nodup) : v.wire.keys.Nodup := by
  cases v with
  | obj fields => exact (keys_wireFields_sublist fields).nodup h
  | num n =>
    rw [wire]
    split_ifs <;> exact List.nodup_nil
  | _ => exact List.nodup_nil

/-- With distinct names, a field that is absent stays absent. -/
theorem get_wire_undefined {v : JsVal} {key : String} (hnd : v.keys.Nodup)
    (h : v.get key = .undefined) : v.wire.get key = .undefined := by
  cases v with
  | obj fields =>
    rw [wire, get, lookup_wireFields key fields hnd]
    cases hl : fields.lookup key with
    | none => rfl
    | some u =>
      have hu : u = .undefined := by simpa [get, hl] using h
      rw [hu]
      rfl
  | num n =>
    rw [wire]
    split_ifs <;> rfl
  | _ => rfl

/-- A field that can be printed can be printed after the trip. -/
theorem printable_get_wire {v : JsVal} {key : String} (hnd : v.keys.Nodup)
    (h : (v.get key).printable = true) : (v.wire.get key).printable = true := by
  by_cases hundefined : v.get key = .undefined
  · rw [get_wire_undefined hnd hundefined]
    rfl
  · rw [get_wire hundefined]
    exact printable_wire _ h

end Wire

section Lemmas

@[simp] theorem get_str (s k : String) : (str s).get k = .undefined := rfl

@[simp] theorem get_undefined (k : String) : undefined.get k = .undefined := rfl

theorem isNullish_of_get {v : JsVal} {k : String} (h : v.get k ≠ .undefined) :
    v.isNullish = false := by
  cases v <;> first | rfl | exact absurd rfl h

theorem prop_eq_ok {v u : JsVal} {k : String} :
    v.prop k = .ok u ↔ v.isNullish = false ∧ v.get k = u := by
  unfold prop
  cases v.isNullish <;> simp

theorem destructure_eq_ok {v u : JsVal} {k name : String} :
    v.destructure k name = .ok u ↔ v.isNullish = false ∧ v.get k = u := by
  unfold destructure
  cases v.isNullish <;> simp

theorem str_of_wire {v : JsVal} {s : String} (h : v.wire = .str s) : v = .str s := by
  cases v with
  | str t => exact h
  | num n =>
    rw [wire] at h
    split_ifs at h
  | _ => cases h

/-- A string that arrives was sent. -/
theorem str_of_get_wire {v : JsVal} {key s : String} (hnd : v.keys.Nodup)
    (h : v.wire.get key = .str s) : v.get key = .str s := by
  by_cases hu : v.get key = .undefined
  · rw [get_wire_undefined hnd hu] at h
    cases h
  · rw [get_wire hu] at h
    exact str_of_wire h

/-- The text of a field arrives as it was sent, and no other does. -/
theorem get_wire_eq_str {v : JsVal} {key s : String} (hnd : v.keys.Nodup) :
    v.wire.get key = .str s ↔ v.get key = .str s :=
  ⟨str_of_get_wire hnd, get_wire_str⟩

theorem get_of_prop {v u : JsVal} {k : String} (h : v.prop k = .ok u) : u = v.get k :=
  (prop_eq_ok.mp h).2.symm

theorem get_of_destructure {v u : JsVal} {k name : String} (h : v.destructure k name = .ok u) :
    u = v.get k := (destructure_eq_ok.mp h).2.symm

theorem asStr_of_eq {v : JsVal} {s : String} (h : v = .str s) : v.asStr = s := by rw [h]; rfl

end Lemmas

end JsVal

end EventFlow.Js
