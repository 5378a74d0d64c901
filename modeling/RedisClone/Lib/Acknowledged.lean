import Mathlib.Algebra.BigOperators.Group.List.Basic
import Mathlib.Algebra.Order.Ring.Int
import Mathlib.Data.List.Infix

/-! # Progress acknowledged over channels in order

A source hands messages to a receiver over a channel that keeps their order.  Some of them carry an item, and the others
are questions how far the receiver is.  It answers with the size of all that it took before the question, in which every
earlier question has a size too.  The source takes an answer that reaches some goal as a sign that the items it awaits
were taken, and is right where the goal is `Guarded` (`taken_of_reached`).
-/

namespace Acknowledged

variable {α β : Type} (item : α → Option β) (size : α → Nat)

/-- The size of some messages. -/
def volume (messages : List α) : Nat := (messages.map size).sum

/-- An answer that says no more than what was taken before some question. -/
def Vouched (taken : List α) (answer : Int) : Prop :=
  answer ≤ 0 ∨ ∃ n question, taken[n]? = some question ∧ item question = none ∧ answer ≤ volume size (taken.take n)

/-- While awaited items are missing, no question with items behind it is answered with as much as the goal. -/
def Guarded (awaited taken : List α) (goal : Int) : Prop :=
  ¬ awaited.filterMap item <+: taken.filterMap item →
    0 < goal ∧ ∀ n < awaited.length, (awaited[n]?.bind item) = none → (awaited.drop n).filterMap item ≠ [] →
      volume size (awaited.take n) < goal

instance [DecidableEq β] (awaited taken : List α) (goal : Int) : Decidable (Guarded item size awaited taken goal) :=
  inferInstanceAs (Decidable (¬ awaited.filterMap item <+: taken.filterMap item →
    0 < goal ∧ ∀ n < awaited.length, (awaited[n]?.bind item) = none → (awaited.drop n).filterMap item ≠ [] →
      volume size (awaited.take n) < goal))

variable {item size} {taken awaited sent more : List α} {question : α} {answer goal : Int}

@[simp] theorem volume_nil : volume size [] = 0 := rfl

@[simp] theorem volume_append (messages others : List α) :
    volume size (messages ++ others) = volume size messages + volume size others := by
  simp [volume]

@[simp] theorem volume_singleton (message : α) : volume size [message] = size message := by simp [volume]

theorem Vouched.mono (vouched : Vouched item size taken answer) (more : List α) :
    Vouched item size (taken ++ more) answer := by
  cases vouched with
  | inl nothing => exact .inl nothing
  | inr asked =>
    obtain ⟨n, question, here, asks, bounded⟩ := asked
    have inside := (List.getElem?_eq_some_iff.mp here).1
    refine .inr ⟨n, question, (List.getElem?_append_left inside).trans here, asks, ?_⟩
    rwa [List.take_append_of_le_length inside.le]

theorem Vouched.of_le {lower : Int} (vouched : Vouched item size taken answer) (less : lower ≤ answer) :
    Vouched item size taken lower := by
  cases vouched with
  | inl nothing => exact .inl (less.trans nothing)
  | inr asked =>
    obtain ⟨n, question, here, asks, bounded⟩ := asked
    exact .inr ⟨n, question, here, asks, less.trans bounded⟩

/-- What was taken before a question is the answer to it. -/
theorem vouched_question (taken : List α) (asks : item question = none) :
    Vouched item size (taken ++ [question]) (volume size taken) :=
  .inr ⟨taken.length, question, by simp, asks, by simp⟩

theorem Guarded.mono (guarded : Guarded item size awaited taken goal) (more : List α) :
    Guarded item size awaited (taken ++ more) goal := by
  intro missing
  apply guarded
  intro all
  apply missing
  rw [List.filterMap_append]
  exact all.trans (List.prefix_append _ _)

/-- An answer that reaches a guarded goal shows that the awaited items were taken. -/
theorem taken_of_reached (wasSent : awaited <+: sent) (takenSent : taken <+: sent)
    (guarded : Guarded item size awaited taken goal) (vouched : Vouched item size taken answer)
    (reached : goal ≤ answer) : awaited.filterMap item <+: taken.filterMap item := by
  by_contra missing
  obtain ⟨positive, beyond⟩ := guarded missing
  cases vouched with
  | inl nothing => omega
  | inr asked =>
    obtain ⟨n, question, here, asks, bounded⟩ := asked
    cases List.prefix_or_prefix_of_prefix wasSent takenSent with
    | inl all => exact missing (all.filterMap item)
    | inr part =>
      -- the question was taken, and what is missing was sent after it
      obtain ⟨rest, rfl⟩ := part
      have inside := (List.getElem?_eq_some_iff.mp here).1
      have behind : ((taken ++ rest).drop n).filterMap item ≠ [] := by
        intro nothing
        apply missing
        rw [List.drop_append_of_le_length inside.le, List.filterMap_append] at nothing
        rw [List.filterMap_append, (List.append_eq_nil_iff.mp nothing).2, List.append_nil]
      have asked : (taken ++ rest)[n]?.bind item = none := by
        rw [List.getElem?_append_left inside, here]
        exact asks
      have less := beyond n (by rw [List.length_append]; omega) asked behind
      rw [List.take_append_of_le_length inside.le] at less
      omega

end Acknowledged
