import Mathlib.Logic.Basic
import Mathlib.Data.Nat.Notation

namespace EventFlow

/-- An async function cut at its awaits: it resolves, rejects, or hands one
operation to the platform and continues with that operation's settlement. -/
inductive Async (Op : Type) (Resp : Op → Type) (ε : Type) (α : Type) where
  | resolve (a : α)
  | reject (e : ε)
  | await (op : Op) (k : Except ε (Resp op) → Async Op Resp ε α)

namespace Async

variable {Op : Type} {Resp : Op → Type} {ε α β γ W C : Type}

def bind : Async Op Resp ε α → (α → Async Op Resp ε β) → Async Op Resp ε β
  | .resolve a, f => f a
  | .reject e, _ => .reject e
  | .await op k, f => .await op fun r => (k r).bind f

/-- `try { p } catch (e) { h e }`. -/
def tryCatch : Async Op Resp ε α → (ε → Async Op Resp ε α) → Async Op Resp ε α
  | .resolve a, _ => .resolve a
  | .reject e, h => h e
  | .await op k, h => .await op fun r => (k r).tryCatch h

instance : Monad (Async Op Resp ε) where
  pure := .resolve
  bind := Async.bind

/-- A synchronous computation that may throw, inside an async function. -/
def ofExcept : Except ε α → Async Op Resp ε α
  | .ok a => .resolve a
  | .error e => .reject e

/-- `await` of one platform operation. -/
def perform (op : Op) : Async Op Resp ε (Resp op) := .await op ofExcept

@[simp] theorem pure_eq (a : α) : (pure a : Async Op Resp ε α) = .resolve a := rfl

@[simp] theorem bind_eq (p : Async Op Resp ε α) (f : α → Async Op Resp ε β) :
    p >>= f = p.bind f := rfl

@[simp] theorem resolve_bind (a : α) (f : α → Async Op Resp ε β) :
    (resolve a).bind f = f a := rfl

@[simp] theorem reject_bind (e : ε) (f : α → Async Op Resp ε β) :
    (reject e).bind f = reject e := rfl

@[simp] theorem ofExcept_ok (a : α) :
    (ofExcept (.ok a) : Async Op Resp ε α) = .resolve a := rfl

@[simp] theorem ofExcept_error (e : ε) :
    (ofExcept (.error e) : Async Op Resp ε α) = .reject e := rfl

theorem bind_assoc (p : Async Op Resp ε α) (f : α → Async Op Resp ε β)
    (g : β → Async Op Resp ε γ) : (p.bind f).bind g = p.bind fun a => (f a).bind g := by
  induction p with
  | resolve a => rfl
  | reject e => rfl
  | await op k ih => exact congrArg (await op) (funext ih)

section Run

/-- The platform settles every operation from the state it keeps. -/
def run (settle : W → (op : Op) → Except ε (Resp op) × W) :
    Async Op Resp ε α → W → Except ε α × W
  | .resolve a, w => (.ok a, w)
  | .reject e, w => (.error e, w)
  | .await op k, w => (k (settle w op).1).run settle (settle w op).2

variable (settle : W → (op : Op) → Except ε (Resp op) × W)

@[simp] theorem run_resolve (a : α) (w : W) :
    (resolve a : Async Op Resp ε α).run settle w = (.ok a, w) := rfl

@[simp] theorem run_reject (e : ε) (w : W) :
    (reject e : Async Op Resp ε α).run settle w = (.error e, w) := rfl

theorem run_await (op : Op) (k : Except ε (Resp op) → Async Op Resp ε α) (w : W) :
    (await op k).run settle w = (k (settle w op).1).run settle (settle w op).2 := rfl

theorem run_perform (op : Op) (w : W) :
    (perform op : Async Op Resp ε (Resp op)).run settle w = settle w op := by
  rw [perform, run_await]
  rcases settle w op with ⟨e | r, w'⟩ <;> rfl

theorem run_bind (p : Async Op Resp ε α) (f : α → Async Op Resp ε β) (w : W) :
    (p.bind f).run settle w =
      match p.run settle w with
      | (.ok a, w') => (f a).run settle w'
      | (.error e, w') => (.error e, w') := by
  induction p generalizing w with
  | resolve a => rfl
  | reject e => rfl
  | await op k ih => exact ih _ _

theorem run_tryCatch (p : Async Op Resp ε α) (h : ε → Async Op Resp ε α) (w : W) :
    (p.tryCatch h).run settle w =
      match p.run settle w with
      | (.ok a, w') => (.ok a, w')
      | (.error e, w') => (h e).run settle w' := by
  induction p generalizing w with
  | resolve a => rfl
  | reject e => rfl
  | await op k ih => exact ih _ _

end Run

section Resolves

variable {settle : W → (op : Op) → Except ε (Resp op) × W} {w : W}

/-- The function gets to its end from a state. -/
def Resolves (settle : W → (op : Op) → Except ε (Resp op) × W) (p : Async Op Resp ε α) (w : W) :
    Prop := ∃ a w', p.run settle w = (.ok a, w')

@[simp] theorem resolves_resolve (a : α) :
    (resolve a : Async Op Resp ε α).Resolves settle w ↔ True := iff_true_intro ⟨a, w, rfl⟩

@[simp] theorem not_resolves_reject (e : ε) :
    ¬ (reject e : Async Op Resp ε α).Resolves settle w := by
  rintro ⟨a, w', h⟩
  cases h

theorem not_resolves {p : Async Op Resp ε α} {e : ε} {w' : W}
    (h : p.run settle w = (.error e, w')) : ¬ p.Resolves settle w := by
  rintro ⟨a, w'', ha⟩
  rw [h] at ha
  cases ha

/-- A sequence gets to its end exactly when each part does in turn. -/
theorem resolves_bind {p : Async Op Resp ε α} {f : α → Async Op Resp ε β} :
    (p.bind f).Resolves settle w ↔
      ∃ a w', p.run settle w = (.ok a, w') ∧ (f a).Resolves settle w' := by
  rw [Resolves, run_bind]
  rcases p.run settle w with ⟨e | a, w₁⟩
  · simp
  · constructor
    · intro h
      exact ⟨a, w₁, rfl, h⟩
    · rintro ⟨a', w', h, hf⟩
      cases h
      exact hf

theorem resolves_ofExcept {x : Except ε α} :
    (ofExcept x : Async Op Resp ε α).Resolves settle w ↔ ∃ a, x = .ok a := by
  cases x <;> simp

theorem resolves_ofExcept_bind {x : Except ε α} {f : α → Async Op Resp ε β} :
    ((ofExcept x).bind f).Resolves settle w ↔ ∃ a, x = .ok a ∧ (f a).Resolves settle w := by
  cases x <;> simp

theorem ok_of_run_ofExcept_bind {x : Except ε α} {f : α → Async Op Resp ε β} {b : β} {w' : W}
    (h : ((ofExcept x).bind f).run settle w = (.ok b, w')) :
    ∃ a, x = .ok a ∧ (f a).run settle w = (.ok b, w') := by
  cases x with
  | ok a => exact ⟨a, rfl, h⟩
  | error e => cases h

/-- While its operations reject with such errors, the function throws only such. -/
def Throws (E : ε → Prop) : Async Op Resp ε α → Prop
  | .resolve _ => True
  | .reject e => E e
  | .await op k => ∀ x : Except ε (Resp op), (∀ e, x = .error e → E e) → (k x).Throws E

variable {E : ε → Prop}

theorem throws_ofExcept {x : Except ε α} (h : ∀ e, x = .error e → E e) :
    (ofExcept x : Async Op Resp ε α).Throws E := by
  cases x with
  | ok a => trivial
  | error e => exact h e rfl

theorem throws_perform (op : Op) : (perform op : Async Op Resp ε (Resp op)).Throws E :=
  fun _ hx => throws_ofExcept hx

theorem Throws.bind {p : Async Op Resp ε α} {f : α → Async Op Resp ε β} (hp : p.Throws E)
    (hf : ∀ a, (f a).Throws E) : (p.bind f).Throws E := by
  induction p with
  | resolve a => exact hf a
  | reject e => exact hp
  | await op k ih => exact fun x hx => ih x (hp x hx)

theorem Throws.run {p : Async Op Resp ε α} (hp : p.Throws E)
    (hsettle : ∀ w op e, (settle w op).1 = .error e → E e) {e : ε} {w' : W}
    (h : p.run settle w = (.error e, w')) : E e := by
  induction p generalizing w with
  | resolve a => cases h
  | reject e' =>
    cases h
    exact hp
  | await op k ih => exact ih _ (hp _ (hsettle w op)) h

end Resolves

section Reaches

variable {settle : W → (op : Op) → Except ε (Resp op) × W} {w : W} {op : Op}

/-- The run gets as far as an operation. -/
def Reaches (settle : W → (op : Op) → Except ε (Resp op) × W) (op : Op) :
    Async Op Resp ε α → W → Prop
  | .resolve _, _ | .reject _, _ => False
  | .await op' k, w => op' = op ∨ (k (settle w op').1).Reaches settle op (settle w op').2

theorem reaches_perform (op : Op) (w : W) :
    (perform op : Async Op Resp ε (Resp op)).Reaches settle op w := .inl rfl

/-- A part that is reached first. -/
theorem Reaches.bind {p : Async Op Resp ε α} (f : α → Async Op Resp ε β)
    (h : p.Reaches settle op w) : (p.bind f).Reaches settle op w := by
  induction p generalizing w with
  | resolve a => exact absurd h id
  | reject e => exact absurd h id
  | await op' k ih =>
    rcases h with hop | hrest
    · exact .inl hop
    · exact .inr (ih _ hrest)

theorem Reaches.tryCatch {p : Async Op Resp ε α} (f : ε → Async Op Resp ε α)
    (h : p.Reaches settle op w) : (p.tryCatch f).Reaches settle op w := by
  induction p generalizing w with
  | resolve a => exact absurd h id
  | reject e => exact absurd h id
  | await op' k ih =>
    rcases h with hop | hrest
    · exact .inl hop
    · exact .inr (ih _ hrest)

/-- A part that is reached once the part before it has resolved. -/
theorem reaches_bind_of_run {p : Async Op Resp ε α} {f : α → Async Op Resp ε β} {a : α} {w' : W}
    (hp : p.run settle w = (.ok a, w')) (hf : (f a).Reaches settle op w') :
    (p.bind f).Reaches settle op w := by
  induction p generalizing w with
  | resolve a' =>
    cases hp
    exact hf
  | reject e => cases hp
  | await op' k ih => exact .inr (ih _ hp)

theorem reaches_ofExcept_bind {x : Except ε α} {f : α → Async Op Resp ε β} {a : α}
    (hx : x = .ok a) (hf : (f a).Reaches settle op w) :
    ((ofExcept x).bind f).Reaches settle op w := by
  subst hx
  exact hf

end Reaches

section Along

/-- Under what terms an async function runs among others: the effect of its
operations, what the others may do to the state at its awaits, which of its
operations may settle and which may reject, and what each must guarantee. -/
structure Contract (W Op : Type) (Resp : Op → Type) where
  exec : W → (op : Op) → Resp op × W
  rely : W → W → Prop
  settles : Op → Prop
  rejects : Op → Prop
  guar : W → W → Prop

/-- The function keeps to its contract from a state on and ends as `Q` says. -/
def Along (T : Contract W Op Resp) (Q : Except ε α → W → Prop) : Async Op Resp ε α → W → Prop
  | .resolve a, w => Q (.ok a) w
  | .reject e, w => Q (.error e) w
  | .await op k, w => ∀ w', T.rely w w' →
      (T.settles op → T.guar w' (T.exec w' op).2 ∧
        (k (.ok (T.exec w' op).1)).Along T Q (T.exec w' op).2) ∧
      (T.rejects op → ∀ e, (k (.error e)).Along T Q w')

variable {T : Contract W Op Resp} {Q Q' : Except ε α → W → Prop}

/-- The rule for one awaited operation that leads from `I` to `J`. -/
theorem along_perform_bind {op : Op} {f : Resp op → Async Op Resp ε α} {I J : W → Prop} {w : W}
    (hrely : ∀ w w', I w → T.rely w w' → I w')
    (hexec : ∀ w, I w → T.settles op → T.guar w (T.exec w op).2 ∧ J (T.exec w op).2)
    (hf : ∀ r w, J w → (f r).Along T Q w) (he : ∀ e w, I w → Q (.error e) w) (hw : I w) :
    ((perform op).bind f).Along T Q w := by
  intro w' hr
  have hw' : I w' := hrely w w' hw hr
  refine ⟨fun hs => ?_, fun _ e => he e w' hw'⟩
  obtain ⟨hguar, hnext⟩ := hexec w' hw' hs
  exact ⟨hguar, hf _ _ hnext⟩

/-- On its own, against any settlement that the contract allows, the function ends so. -/
theorem Along.run {σ : Type} {π : σ → W} {settle : σ → (op : Op) → Except ε (Resp op) × σ}
    {p : Async Op Resp ε α} (hrefl : ∀ w, T.rely w w)
    (hsettle : ∀ s op, (T.settles op ∧ (settle s op).1 = .ok (T.exec (π s) op).1 ∧
        π (settle s op).2 = (T.exec (π s) op).2) ∨
      (T.rejects op ∧ (∃ e, (settle s op).1 = .error e) ∧ π (settle s op).2 = π s)) {s : σ}
    (h : p.Along T Q (π s)) : Q (p.run settle s).1 (π (p.run settle s).2) := by
  induction p generalizing s with
  | resolve a => exact h
  | reject e => exact h
  | await op k ih =>
    obtain ⟨hok, herr⟩ := h (π s) (hrefl _)
    rw [run_await]
    rcases hsettle s op with ⟨hs, hresp, hstate⟩ | ⟨hr, ⟨e, hresp⟩, hstate⟩
    · rw [hresp]
      exact ih _ (by rw [hstate]; exact (hok hs).2)
    · rw [hresp]
      exact ih _ (by rw [hstate]; exact herr hr e)

/-- The rule for `await f()` inside a larger function. -/
theorem Along.bind {p : Async Op Resp ε α} {f : α → Async Op Resp ε β}
    {Q' : Except ε β → W → Prop} {w : W} (hp : p.Along T Q w)
    (hf : ∀ a w', Q (.ok a) w' → (f a).Along T Q' w')
    (he : ∀ e w', Q (.error e) w' → Q' (.error e) w') : (p.bind f).Along T Q' w := by
  induction p generalizing w with
  | resolve a => exact hf a w hp
  | reject e => exact he e w hp
  | await op k ih =>
    intro w' hr
    obtain ⟨hok, herr⟩ := hp w' hr
    exact ⟨fun hs => ⟨(hok hs).1, ih _ (hok hs).2⟩, fun hj e => ih _ (herr hj e)⟩

/-- The rule for `try { p } catch`. -/
theorem Along.tryCatch {p : Async Op Resp ε α} {h : ε → Async Op Resp ε α} {w : W}
    (hp : p.Along T Q w) (hok : ∀ a w', Q (.ok a) w' → Q' (.ok a) w')
    (hh : ∀ e w', Q (.error e) w' → (h e).Along T Q' w') : (p.tryCatch h).Along T Q' w := by
  induction p generalizing w with
  | resolve a => exact hok a w hp
  | reject e => exact hh e w hp
  | await op k ih =>
    intro w' hr
    obtain ⟨hok', herr⟩ := hp w' hr
    exact ⟨fun hs => ⟨(hok' hs).1, ih _ (hok' hs).2⟩, fun hj e => ih _ (herr hj e)⟩

theorem Along.imp {p : Async Op Resp ε α} {w : W} (hp : p.Along T Q w)
    (hq : ∀ x w', Q x w' → Q' x w') : p.Along T Q' w := by
  induction p generalizing w with
  | resolve a => exact hq _ _ hp
  | reject e => exact hq _ _ hp
  | await op k ih =>
    intro w' hr
    obtain ⟨hok, herr⟩ := hp w' hr
    exact ⟨fun hs => ⟨(hok hs).1, ih _ (hok hs).2⟩, fun hj e => ih _ (herr hj e)⟩

end Along

section Outline

variable {Phase : Type} {T : Contract W Op Resp} {holds : Phase → W → Prop}

/-- A proof outline: from a state in phase `ph` the function ends in the phase
that its result names. -/
def Outlined (T : Contract W Op Resp) (holds : Phase → W → Prop) (ph : Phase)
    (p : Async Op Resp ε α) (post : Except ε α → Phase) : Prop :=
  ∀ w, holds ph w → p.Along T (fun x w' => holds (post x) w') w

theorem outlined_resolve {ph : Phase} {a : α} {post : Except ε α → Phase}
    (h : ∀ w, holds ph w → holds (post (.ok a)) w) :
    Outlined T holds ph (resolve a : Async Op Resp ε α) post := h

theorem outlined_ofExcept {ph : Phase} {x : Except ε α} {post : Except ε α → Phase}
    (h : ∀ w, holds ph w → holds (post x) w) :
    Outlined T holds ph (ofExcept x : Async Op Resp ε α) post := by
  cases x <;> exact h

theorem outlined_perform {ph : Phase} {op : Op} {post : Except ε (Resp op) → Phase}
    (hstable : ∀ w w', holds ph w → T.rely w w' → holds ph w')
    (hok : ∀ w, holds ph w → T.settles op →
      T.guar w (T.exec w op).2 ∧ holds (post (.ok (T.exec w op).1)) (T.exec w op).2)
    (herr : ∀ w e, holds ph w → T.rejects op → holds (post (.error e)) w) :
    Outlined T holds ph (perform op : Async Op Resp ε (Resp op)) post := by
  intro w hw w' hr
  have hw' : holds ph w' := hstable w w' hw hr
  exact ⟨hok w' hw', fun hj e => herr w' e hw' hj⟩

theorem Outlined.bind {ph : Phase} {p : Async Op Resp ε α} {f : α → Async Op Resp ε β}
    {mid : Except ε α → Phase} {post : Except ε β → Phase} (hp : Outlined T holds ph p mid)
    (hf : ∀ a, Outlined T holds (mid (.ok a)) (f a) post)
    (he : ∀ e w, holds (mid (.error e)) w → holds (post (.error e)) w) :
    Outlined T holds ph (p.bind f) post := fun w hw =>
  (hp w hw).bind (fun a w' ha => hf a w' ha) he

theorem Outlined.tryCatch {ph : Phase} {p : Async Op Resp ε α} {h : ε → Async Op Resp ε α}
    {mid post : Except ε α → Phase} (hp : Outlined T holds ph p mid)
    (hok : ∀ a w, holds (mid (.ok a)) w → holds (post (.ok a)) w)
    (hh : ∀ e, Outlined T holds (mid (.error e)) (h e) post) :
    Outlined T holds ph (p.tryCatch h) post := fun w hw =>
  (hp w hw).tryCatch hok fun e w' he => hh e w' he

end Outline

section Performs

/-- Whatever its operations settle with, the function performs only such ones. -/
def Performs (S : Op → Prop) : Async Op Resp ε α → Prop
  | .resolve _ | .reject _ => True
  | .await op k => S op ∧ ∀ r, (k r).Performs S

variable {S : Op → Prop}

@[simp] theorem performs_resolve (a : α) :
    (resolve a : Async Op Resp ε α).Performs S ↔ True := Iff.rfl

@[simp] theorem performs_reject (e : ε) :
    (reject e : Async Op Resp ε α).Performs S ↔ True := Iff.rfl

@[simp] theorem performs_ofExcept {x : Except ε α} :
    (ofExcept x : Async Op Resp ε α).Performs S := by
  cases x <;> trivial

@[simp] theorem performs_perform (op : Op) :
    (perform op : Async Op Resp ε (Resp op)).Performs S ↔ S op := by
  constructor
  · intro h
    exact h.1
  · intro h
    exact ⟨h, fun _ => performs_ofExcept⟩

theorem Performs.bind {p : Async Op Resp ε α} {f : α → Async Op Resp ε β} (hp : p.Performs S)
    (hf : ∀ a, (f a).Performs S) : (p.bind f).Performs S := by
  induction p with
  | resolve a => exact hf a
  | reject e => trivial
  | await op k ih => exact ⟨hp.1, fun r => ih r (hp.2 r)⟩

theorem performs_ofExcept_bind {x : Except ε α} {f : α → Async Op Resp ε β}
    (hf : ∀ a, x = .ok a → (f a).Performs S) : ((ofExcept x).bind f).Performs S := by
  cases x with
  | ok a => exact hf a rfl
  | error e => trivial

theorem Performs.tryCatch {p : Async Op Resp ε α} {h : ε → Async Op Resp ε α} (hp : p.Performs S)
    (hh : ∀ e, (h e).Performs S) : (p.tryCatch h).Performs S := by
  induction p with
  | resolve a => trivial
  | reject e => exact hh e
  | await op k ih => exact ⟨hp.1, fun r => ih r (hp.2 r)⟩

/-- What such operations keep, a run keeps. -/
theorem Performs.run {settle : W → (op : Op) → Except ε (Resp op) × W} {I : W → Prop}
    {p : Async Op Resp ε α} (hp : p.Performs S)
    (hstep : ∀ w op, S op → I w → I (settle w op).2) {w : W} (hw : I w) : I (p.run settle w).2 := by
  induction p generalizing w with
  | resolve a => exact hw
  | reject e => exact hw
  | await op k ih => exact ih _ (hp.2 _) (hstep w op hp.1 hw)

/-- A log that only grows has grown by what the operations add. -/
theorem Performs.adds {β : Type*} {settle : W → (op : Op) → Except ε (Resp op) × W}
    {L : W → List β} {P : β → Prop} {p : Async Op Resp ε α} (hp : p.Performs S)
    (hstep : ∀ w op, S op → ∃ new, L (settle w op).2 = L w ++ new ∧ ∀ x ∈ new, P x) (w : W) :
    ∃ new, L (p.run settle w).2 = L w ++ new ∧ ∀ x ∈ new, P x := by
  induction p generalizing w with
  | resolve a => exact ⟨[], (List.append_nil _).symm, by simp⟩
  | reject e => exact ⟨[], (List.append_nil _).symm, by simp⟩
  | await op k ih =>
    obtain ⟨first, hfirst, hmem⟩ := hstep w op hp.1
    obtain ⟨rest, hrest, hmem'⟩ := ih (settle w op).1 (hp.2 _) (settle w op).2
    refine ⟨first ++ rest, ?_, ?_⟩
    · rw [run_await, hrest, hfirst, List.append_assoc]
    · intro x hx
      rcases List.mem_append.mp hx with hx | hx
      · exact hmem x hx
      · exact hmem' x hx

/-- What such operations keep under interference, the function keeps to its end. -/
theorem Performs.along {T : Contract W Op Resp} {I : W → Prop} {p : Async Op Resp ε α}
    (hp : p.Performs S) (hrely : ∀ w w', I w → T.rely w w' → I w')
    (hstep : ∀ w op, S op → T.settles op → I w → T.guar w (T.exec w op).2 ∧ I (T.exec w op).2)
    {w : W} (hw : I w) : p.Along T (fun _ w' => I w') w := by
  induction p generalizing w with
  | resolve a => exact hw
  | reject e => exact hw
  | await op k ih =>
    intro w' hr
    have hw' : I w' := hrely w w' hw hr
    refine ⟨fun hs => ?_, fun _ e => ih _ (hp.2 _) hw'⟩
    obtain ⟨hg, hnext⟩ := hstep w' op hp.1 hs hw'
    exact ⟨hg, ih _ (hp.2 _) hnext⟩

/-- From every state that meets it on, the function keeps to its contract, and meets it
again at its end. -/
def Keeps (T : Contract W Op Resp) (I : W → Prop) (p : Async Op Resp ε α) : Prop :=
  ∀ w, I w → p.Along T (fun _ w' => I w') w

/-- What one operation has to do for that. -/
def Kept (T : Contract W Op Resp) (I : W → Prop) (op : Op) : Prop :=
  ∀ w, I w → T.guar w (T.exec w op).2 ∧ I (T.exec w op).2

section Keeps

variable {T : Contract W Op Resp} {I : W → Prop} {p : Async Op Resp ε α}

theorem Performs.keeps (hrely : ∀ w w', I w → T.rely w w' → I w') (hp : p.Performs (Kept T I)) :
    p.Keeps T I := fun _ hw => hp.along hrely (fun w _ hop _ h => hop w h) hw

/-- Only what settles has to be kept. -/
theorem Performs.keeps_settled (hrely : ∀ w w', I w → T.rely w w' → I w')
    (hp : p.Performs fun op => T.settles op → Kept T I op) : p.Keeps T I :=
  fun _ hw => hp.along hrely (fun w _ hop hs h => hop hs w h) hw

theorem keeps_resolve (a : α) : (resolve a : Async Op Resp ε α).Keeps T I := fun _ hw => hw

theorem keeps_reject (e : ε) : (reject e : Async Op Resp ε α).Keeps T I := fun _ hw => hw

theorem Keeps.bind {f : α → Async Op Resp ε β} (hp : p.Keeps T I) (hf : ∀ a, (f a).Keeps T I) :
    (p.bind f).Keeps T I := fun w hw =>
  (hp w hw).bind (fun a w' h => hf a w' h) fun _ _ h => h

theorem Keeps.tryCatch {h : ε → Async Op Resp ε α} (hp : p.Keeps T I)
    (hh : ∀ e, (h e).Keeps T I) : (p.tryCatch h).Keeps T I := fun w hw =>
  (hp w hw).tryCatch (fun _ _ h => h) fun e w' h => hh e w' h

theorem keeps_ofExcept_bind {x : Except ε α} {f : α → Async Op Resp ε β}
    (hf : ∀ a, x = .ok a → (f a).Keeps T I) : ((ofExcept x).bind f).Keeps T I := by
  cases x with
  | ok a => exact hf a rfl
  | error e => exact keeps_reject e

end Keeps

theorem Performs.imp {S' : Op → Prop} {p : Async Op Resp ε α} (hp : p.Performs S)
    (h : ∀ op, S op → S' op) : p.Performs S' := by
  induction p with
  | resolve a => trivial
  | reject e => trivial
  | await op k ih => exact ⟨h op hp.1, fun r => ih r (hp.2 r)⟩

end Performs

section Once

/-- After an operation of the first kind there is none of the second. -/
def Closes (S T : Op → Prop) : Async Op Resp ε α → Prop
  | .resolve _ | .reject _ => True
  | .await op k => (S op → ∀ r, (k r).Performs fun op => ¬ T op) ∧ ∀ r, (k r).Closes S T

/-- At most one of its operations is of a kind. -/
abbrev Once (S : Op → Prop) (p : Async Op Resp ε α) : Prop := p.Closes S S

variable {S T : Op → Prop} {p : Async Op Resp ε α}

theorem Performs.closes (hp : p.Performs fun op => ¬ S op) : p.Closes S T := by
  induction p with
  | resolve a => trivial
  | reject e => trivial
  | await op k ih => exact ⟨fun h => absurd h hp.1, fun r => ih r (hp.2 r)⟩

theorem closes_perform (op : Op) : (perform op : Async Op Resp ε (Resp op)).Closes S T :=
  ⟨fun _ _ => performs_ofExcept, fun _ => Performs.closes performs_ofExcept⟩

/-- One of the first kind, and then none of either. -/
theorem Closes.bind {f : α → Async Op Resp ε β} (hp : p.Closes S T)
    (hf : ∀ a, (f a).Performs fun op => ¬ T op) (hle : ∀ op, S op → T op) :
    (p.bind f).Closes S T := by
  have hnone : ∀ a, (f a).Performs fun op => ¬ S op :=
    fun a => (hf a).imp fun op h hop => h (hle op hop)
  induction p with
  | resolve a => exact (hnone a).closes
  | reject e => trivial
  | await op k ih => exact ⟨fun h r => (hp.1 h r).bind hf, fun r => ih r (hp.2 r)⟩

/-- None of the first kind, and then one. -/
theorem Performs.closes_bind {f : α → Async Op Resp ε β} (hp : p.Performs fun op => ¬ S op)
    (hf : ∀ a, (f a).Closes S T) : (p.bind f).Closes S T := by
  induction p with
  | resolve a => exact hf a
  | reject e => trivial
  | await op k ih => exact ⟨fun h => absurd h hp.1, fun r => ih r (hp.2 r)⟩

theorem Performs.closes_tryCatch {h : ε → Async Op Resp ε α} (hp : p.Performs fun op => ¬ S op)
    (hh : ∀ e, (h e).Closes S T) : (p.tryCatch h).Closes S T := by
  induction p with
  | resolve a => trivial
  | reject e => exact hh e
  | await op k ih => exact ⟨fun h => absurd h hp.1, fun r => ih r (hp.2 r)⟩

theorem Once.bind {f : α → Async Op Resp ε β} (hp : p.Once S)
    (hf : ∀ a, (f a).Performs fun op => ¬ S op) : (p.bind f).Once S :=
  Closes.bind hp hf fun _ h => h

theorem Once.tryCatch {h : ε → Async Op Resp ε α} (hp : p.Once S)
    (hh : ∀ e, (h e).Performs fun op => ¬ S op) : (p.tryCatch h).Once S := by
  induction p with
  | resolve a => trivial
  | reject e => exact (hh e).closes
  | await op k ih => exact ⟨fun h r => (hp.1 h r).tryCatch hh, fun r => ih r (hp.2 r)⟩

end Once

section Advance

/-- The function after its next `n` operations have settled well. -/
def advance (exec : W → (op : Op) → Resp op × W) :
    ℕ → Async Op Resp ε α → W → Async Op Resp ε α × W
  | n + 1, .await op k, w => advance exec n (k (.ok (exec w op).1)) (exec w op).2
  | _, p, w => (p, w)

end Advance

section Interp

variable {Op' : Type} {Resp' : Op' → Type}

/-- Goes on with what a function settles with, a value or an error. -/
def settled : Async Op Resp ε α → (Except ε α → Async Op Resp ε β) → Async Op Resp ε β
  | .resolve a, k => k (.ok a)
  | .reject e, k => k (.error e)
  | .await op k', k => .await op fun r => (k' r).settled k

/-- The function with its operations carried out by another platform's functions. -/
def interp (f : (op : Op) → Async Op' Resp' ε (Resp op)) : Async Op Resp ε α → Async Op' Resp' ε α
  | .resolve a => .resolve a
  | .reject e => .reject e
  | .await op k => (f op).settled fun r => (k r).interp f

theorem settled_ofExcept (p : Async Op Resp ε α) : p.settled ofExcept = p := by
  induction p with
  | resolve a => rfl
  | reject e => rfl
  | await op k ih => exact congrArg (await op) (funext ih)

theorem settled_bind (p : Async Op Resp ε α) (k : Except ε α → Async Op Resp ε β)
    (f : β → Async Op Resp ε γ) : (p.settled k).bind f = p.settled fun r => (k r).bind f := by
  induction p with
  | resolve a => rfl
  | reject e => rfl
  | await op k' ih => exact congrArg (await op) (funext ih)

theorem settled_tryCatch (p : Async Op Resp ε α) (k : Except ε α → Async Op Resp ε β)
    (h : ε → Async Op Resp ε β) :
    (p.settled k).tryCatch h = p.settled fun r => (k r).tryCatch h := by
  induction p with
  | resolve a => rfl
  | reject e => rfl
  | await op k' ih => exact congrArg (await op) (funext ih)

variable (f : (op : Op) → Async Op' Resp' ε (Resp op))

@[simp] theorem interp_resolve (a : α) : (resolve a : Async Op Resp ε α).interp f = resolve a := rfl

@[simp] theorem interp_reject (e : ε) : (reject e : Async Op Resp ε α).interp f = reject e := rfl

@[simp] theorem interp_perform (op : Op) :
    (perform op : Async Op Resp ε (Resp op)).interp f = f op := by
  have hof : (fun r => (ofExcept r : Async Op Resp ε (Resp op)).interp f) = ofExcept := by
    funext r
    cases r <;> rfl
  change (f op).settled (fun r => (ofExcept r : Async Op Resp ε (Resp op)).interp f) = f op
  rw [hof, settled_ofExcept]

theorem interp_bind (p : Async Op Resp ε α) (g : α → Async Op Resp ε β) :
    (p.bind g).interp f = (p.interp f).bind fun a => (g a).interp f := by
  induction p with
  | resolve a => rfl
  | reject e => rfl
  | await op k ih =>
    simp only [bind, interp, settled_bind, ih]

theorem interp_tryCatch (p : Async Op Resp ε α) (h : ε → Async Op Resp ε α) :
    (p.tryCatch h).interp f = (p.interp f).tryCatch fun e => (h e).interp f := by
  induction p with
  | resolve a => rfl
  | reject e => rfl
  | await op k ih =>
    simp only [tryCatch, interp, settled_tryCatch, ih]

end Interp

end Async

end EventFlow
