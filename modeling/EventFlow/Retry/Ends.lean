import EventFlow.Retry.Execute

namespace EventFlow.Retry

open Js Shared Services Async

variable {C α β : Type} {c : C} {w w' : World C} {op : Op} {ops xs ys : List Op}

/-- When every operation settles well the function gets to its end, and writes just this. -/
def Ends (c : C) (p : Promise α) (w : World C) (a : α) (writes : List Op) : Prop :=
  ∃ ops, p.run (World.settle c noFailure) w = (.ok a, w.after c ops) ∧
    ops.filter (fun op => !quiet op) = writes

/-- The orders after some operations are those that the writes among them leave. -/
theorem orders_after (hsame : w.orders = w'.orders) (ops : List Op) :
    (w.after c ops).orders = (w'.after c (ops.filter fun op => !quiet op)).orders := by
  induction ops generalizing w w' with
  | nil => exact hsame
  | cons op ops ih =>
    cases hquiet : quiet op with
    | true =>
      obtain ⟨-, -, hsave, hupdate⟩ := not_write_of_quiet hquiet
      have hstep : (w.exec c op).2.orders = w'.orders :=
        (World.exec_orders c w hsave hupdate).trans hsame
      have hskip : (op :: ops).filter (fun op => !quiet op) = ops.filter fun op => !quiet op := by
        simp [hquiet]
      rw [hskip]
      exact ih hstep
    | false =>
      have hkeep : (op :: ops).filter (fun op => !quiet op) =
          op :: ops.filter fun op => !quiet op := by simp [hquiet]
      have hstep : (w.exec c op).2.orders = (w'.exec c op).2.orders := by
        cases op with
        | saveOrder row => exact congrArg (Table.save · row) hsame
        | updateOrder criterion status =>
          simp only [World.exec, World.perform, hsame]
        | _ => exact hsame
      rw [hkeep]
      exact ih hstep

/-- The log gets what they emit. -/
theorem emitted_writes (ops : List Op) :
    (ops.filter fun op => !quiet op).filterMap World.emitted = ops.filterMap World.emitted := by
  induction ops with
  | nil => rfl
  | cons op ops ih =>
    have hskip : quiet op = true → World.emitted op = none := by
      cases op <;> simp [quiet, World.emitted]
    cases hquiet : quiet op with
    | true => simp [hquiet, hskip hquiet, ih]
    | false => simp [hquiet, List.filterMap_cons, ih]

namespace Ends

theorem resolve (a : α) : Ends c (.resolve a : Promise α) w a [] := ⟨[], rfl, rfl⟩

theorem ofExcept {x : Except JsThrow α} {a : α} (hx : x = .ok a) :
    Ends c (Async.ofExcept x : Promise α) w a [] := by
  subst hx
  exact ⟨[], rfl, rfl⟩

theorem bind {p : Promise α} {f : α → Promise β} {a : α} {b : β} (hp : Ends c p w a xs)
    (hf : ∀ ops, ops.filter (fun op => !quiet op) = xs → Ends c (f a) (w.after c ops) b ys) :
    Ends c (p.bind f) w b (xs ++ ys) := by
  obtain ⟨ops, hrun, hwrites⟩ := hp
  obtain ⟨ops', hrun', hwrites'⟩ := hf ops hwrites
  refine ⟨ops ++ ops', ?_, ?_⟩
  · rw [run_bind_ok hrun, hrun', World.after_append]
  · rw [List.filter_append, hwrites, hwrites']

/-- What only works on the result writes nothing more. -/
theorem map {p : Promise α} {a : α} (f : α → β) (hp : Ends c p w a xs) :
    Ends c (p.bind fun x => .resolve (f x)) w (f a) xs := by
  have hdone := hp.bind (f := fun x => .resolve (f x)) fun _ _ => .resolve (f a)
  rwa [List.append_nil] at hdone

theorem perform {op : Op} (hop : quiet op = false) :
    Ends c (Async.perform op : Promise op.Resp) w (w.exec c op).1 [op] := by
  refine ⟨[op], run_perform_ok rfl, ?_⟩
  simp [hop]

theorem ofExcept_bind {x : Except JsThrow α} {f : α → Promise β} {a : α} {b : β} (hx : x = .ok a)
    (hf : Ends c (f a) w b ys) : Ends c ((Async.ofExcept x).bind f) w b ys := by
  rw [hx, Async.ofExcept_ok, Async.resolve_bind]
  exact hf

theorem sleep (ms : Number) : Ends c (Shared.sleep ms) w () [] := ⟨[.sleep ms], run_sleep rfl, rfl⟩

theorem logLine {vs : List JsVal} (h : ∀ v ∈ vs, v.printable = true) :
    Ends c (Async.ofExcept (JsVal.logLine vs)) w () [] := ofExcept (JsVal.logLine_eq_ok.mpr h)

/-- An event goes out under its order. -/
theorem publish {t : EventType} {event : JsVal} {orderId : String}
    (hid : (event.get "payload").get "orderId" = .str orderId) (hne : orderId ≠ "") :
    Ends c (eventPublisher.publish t event []) w () [.emit (domainRecord t orderId event [])] := by
  have hkey : resolvePartitionKey event = .ok orderId := getPartitionKey_eq_ok.mpr ⟨hid, hne⟩
  exact ofExcept_bind hkey (perform rfl)

end Ends

end EventFlow.Retry
