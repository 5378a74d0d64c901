import RedisClone.Lib.Preserves

/-! # What a computation writes

`out` is an output that only grows.  `Writes out P x s`: where `x` ends normally from `s`, it has appended something with
the property `P` to the output.  There is a rule for every way a computation is put together of parts that write nothing
(`Preserves (SameOutput out)`, by instance search) and one part that writes.
-/

namespace Exec

variable {σ ε α β ω : Type}

/-- Nothing is written. -/
def SameOutput (out : σ → List ω) (s t : σ) : Prop := out t = out s

/-- A normal end has appended something with the property. -/
def Writes (out : σ → List ω) (P : List ω → Prop) (x : Exec σ ε α) (s : σ) : Prop :=
  ∀ a t, x s = .ok (a, t) → ∃ written, out t = out s ++ written ∧ P written

variable {out : σ → List ω} {P Q : List ω → Prop} {x : Exec σ ε α} {f : α → Exec σ ε β} {s t : σ} {a : α}

theorem composes_sameOutput : Composes (SameOutput out) where
  refl _ := rfl
  trans before after := Eq.trans after before

namespace Writes

theorem mono (writes : Writes out P x s) (weaker : ∀ written, P written → Q written) : Writes out Q x s := by
  intro a t run
  obtain ⟨written, appended, holds⟩ := writes a t run
  exact ⟨written, appended, weaker written holds⟩

theorem of_error {e : ε} (fails : x s = .error e) : Writes out P x s := by
  intro a t run
  simp [fails] at run

theorem of_ok {written : List ω} (run : x s = .ok (a, t)) (appended : out t = out s ++ written) (holds : P written) :
    Writes out P x s := by
  intro b u run'
  obtain ⟨rfl, rfl⟩ := Prod.mk.inj (Except.ok.inj (run.symm.trans run'))
  exact ⟨written, appended, holds⟩

/-- Nothing is written before. -/
theorem after [quiet : Preserves (SameOutput out) x] (rest : ∀ a t, x s = .ok (a, t) → Writes out P (f a) t) :
    Writes out P (x >>= f) s := by
  intro b u run
  obtain ⟨a, t, first, second⟩ := bind_eq_ok.mp run
  obtain ⟨written, appended, holds⟩ := rest a t first b u second
  have same : out t = out s := quiet.run s a t first
  exact ⟨written, by rw [appended, same], holds⟩

/-- Nothing is written behind. -/
theorem before (writes : Writes out P x s) (quiet : ∀ a, Preserves (SameOutput out) (f a)) :
    Writes out P (x >>= f) s := by
  intro b u run
  obtain ⟨a, t, first, second⟩ := bind_eq_ok.mp run
  obtain ⟨written, appended, holds⟩ := writes a t first
  have same : out u = out t := (quiet a).run t b u second
  exact ⟨written, by rw [same, appended], holds⟩

/-- A first part with a known end that leaves the output. -/
theorem of_bind (first : x s = .ok (a, t)) (same : out t = out s) (rest : Writes out P (f a) t) :
    Writes out P (x >>= f) s := by
  intro b u run
  rw [bind_of_ok first] at run
  obtain ⟨written, appended, holds⟩ := rest b u run
  exact ⟨written, by rw [appended, same], holds⟩

theorem ite {c : Prop} [Decidable c] {y : Exec σ ε α} (whenTrue : c → Writes out P x s)
    (whenFalse : ¬ c → Writes out P y s) : Writes out P (if c then x else y) s := by
  split
  · exact whenTrue ‹_›
  · exact whenFalse ‹_›

end Writes

end Exec
