import AsmVariants.Text.Basic
import Mathlib.Data.List.Basic
import Mathlib.Data.List.TakeDrop
import Mathlib.Data.List.TakeWhile

/-!
# `AsmVariants.Proofs.Text.Run`: runs of one class of characters

Words, numbers and white space are runs: texts of characters of one class, with at least one. A
reader takes a run as far as it goes, and `span_append` says that it takes the whole run and nothing
else, if the rest does not begin with the class (`Stops`).
-/

set_option autoImplicit false

namespace AsmVariants.Proofs

/-- A text of characters of one class, with at least one. -/
structure IsRun (test : Char → Bool) (t : Text) : Prop where
  ne_nil : t ≠ []
  all : ∀ c ∈ t, test c

/-- Whether a text is a run is checked character by character. -/
instance (test : Char → Bool) (t : Text) : Decidable (IsRun test t) :=
  decidable_of_iff (t ≠ [] ∧ t.all test)
    ⟨fun h => ⟨h.1, List.all_eq_true.mp h.2⟩, fun h => ⟨h.ne_nil, List.all_eq_true.mpr h.all⟩⟩

/-- A text does not begin with the class. -/
def Stops (test : Char → Bool) (t : Text) : Prop := ∀ c ∈ t.head?, test c = false

section

variable {test other : Char → Bool} {run t rest : Text} {c : Char}

/-- A text stops a class if its first character is of another one. -/
theorem stops_cons (h : test c = false) : Stops test (c :: t) := by
  intro d hd
  obtain rfl : c = d := Option.some.inj hd
  exact h

/-- A run of one class does not begin with another class that is apart from it. -/
theorem IsRun.stops_append (h : IsRun other run) (hapart : ∀ c, other c → test c = false) :
    Stops test (run ++ rest) := by
  cases run with
  | nil => exact absurd rfl h.ne_nil
  | cons c run => exact stops_cons (hapart c (h.all c List.mem_cons_self))

/-- A run ends where the rest does not begin with the class. -/
theorem span_append (h : ∀ c ∈ run, test c) (hrest : Stops test rest) :
    (run ++ rest).span test = (run, rest) := by
  have hstop : rest.takeWhile test = [] ∧ rest.dropWhile test = rest := by
    cases rest with
    | nil => exact ⟨rfl, rfl⟩
    | cons c rest =>
      have hc : ¬ test c = true := by simp [hrest c rfl]
      exact ⟨List.takeWhile_cons_of_neg hc, List.dropWhile_cons_of_neg hc⟩
  rw [List.span_eq_takeWhile_dropWhile, List.takeWhile_append_of_pos h,
    List.dropWhile_append_of_pos h, hstop.1, hstop.2, List.append_nil]

end

end AsmVariants.Proofs
