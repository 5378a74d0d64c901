import RedisClone.Lib.Exec

/-! # Computations that come to an end

`Ends x s`: from the state the computation ends without a fault.  A sequence ends where its first part does, and the rest
from every state that the first part leads to.  `Total x` is the case of every state, with an instance for every way a
computation is put together, so that a part without a condition is done by instance search.
-/

namespace Exec

variable {σ ε α β : Type}

/-- The computation ends without a fault. -/
def Ends (x : Exec σ ε α) (s : σ) : Prop := ∃ a t, x s = .ok (a, t)

/-- It ends from every state. -/
class Total (x : Exec σ ε α) : Prop where
  ends : ∀ s, Ends x s

section Ends

variable {x : Exec σ ε α} {f : α → Exec σ ε β} {s t : σ} {a : α}

theorem Ends.of_ok (run : x s = .ok (a, t)) : Ends x s := ⟨a, t, run⟩

theorem Ends.unit {y : Exec σ ε Unit} (ends : Ends y s) : ∃ t, y s = .ok ((), t) := by
  obtain ⟨_, t, run⟩ := ends
  exact ⟨t, run⟩

/-- A computation that ends just as another one. -/
theorem Ends.congr {y : Exec σ ε α} (ends : Ends y t) (same : x s = y t) : Ends x s := by
  obtain ⟨a, u, run⟩ := ends
  exact ⟨a, u, same.trans run⟩

theorem Ends.bind (first : Ends x s) (rest : ∀ a t, x s = .ok (a, t) → Ends (f a) t) : Ends (x >>= f) s := by
  obtain ⟨a, t, run⟩ := first
  exact (rest a t run).congr (bind_of_ok run)

/-- A first part that is known is left out. -/
theorem Ends.after (run : x s = .ok (a, t)) (rest : Ends (f a) t) : Ends (x >>= f) s :=
  rest.congr (bind_of_ok run)

theorem Ends.ite {c : Prop} [Decidable c] {y : Exec σ ε α} (whenTrue : c → Ends x s) (whenFalse : ¬ c → Ends y s) :
    Ends (if c then x else y) s := by
  split
  · exact whenTrue ‹c›
  · exact whenFalse ‹¬ c›

theorem Ends.onlyIf {c : Prop} [Decidable c] {y : Exec σ ε Unit} (whenTrue : c → Ends y s) : Ends (onlyIf c y) s :=
  .ite whenTrue fun _ => ⟨(), s, rfl⟩

/-- A loop ends whose body ends, and keeps to an invariant. -/
theorem Ends.forM {I : σ → Prop} {items : List β} {body : β → Exec σ ε PUnit} (holds : I s)
    (each : ∀ item ∈ items, ∀ s, I s → Ends (body item) s)
    (keeps : ∀ item ∈ items, ∀ s t, I s → body item s = .ok (⟨⟩, t) → I t) : Ends (forM items body) s := by
  induction items generalizing s with
  | nil => exact ⟨⟨⟩, s, rfl⟩
  | cons item items inductionHypothesis =>
    rw [List.forM_cons]
    refine .bind (each item List.mem_cons_self s holds) fun _ t run => ?_
    exact inductionHypothesis (keeps item List.mem_cons_self s t holds run)
      (fun other member => each other (List.mem_cons_of_mem _ member))
      (fun other member => keeps other (List.mem_cons_of_mem _ member))

end Ends

section Total

variable {x : Exec σ ε α} {f : α → Exec σ ε β} {s t : σ}

/-- What follows on a part that always ends. -/
theorem Ends.rest [total : Total x] (rest : ∀ a t, x s = .ok (a, t) → Ends (f a) t) : Ends (x >>= f) s :=
  (total.ends s).bind rest

instance total_pure (a : α) : Total (pure a : Exec σ ε α) := ⟨fun s => ⟨a, s, rfl⟩⟩

instance total_observe (g : σ → α) : Total (observe g : Exec σ ε α) := ⟨fun s => ⟨g s, s, rfl⟩⟩

instance total_alter (g : σ → σ) : Total (alter g : Exec σ ε Unit) := ⟨fun s => ⟨(), g s, rfl⟩⟩

instance total_draw (g : σ → α) (next : σ → σ) : Total (draw g next : Exec σ ε α) := ⟨fun s => ⟨g s, next s, rfl⟩⟩

instance total_bind [Total x] [later : ∀ a, Total (f a)] : Total (x >>= f) :=
  ⟨fun _ => .rest fun a t _ => (later a).ends t⟩

instance total_map (g : α → β) [Total x] : Total (g <$> x) := by
  rw [← bind_pure_comp]
  infer_instance

instance total_ite {c : Prop} [Decidable c] {y : Exec σ ε α} [Total x] [Total y] : Total (if c then x else y) := by
  split
  · infer_instance
  · infer_instance

end Total

end Exec
