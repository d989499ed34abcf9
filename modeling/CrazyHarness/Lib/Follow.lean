import Mathlib

/-! # Following a chain

`follow accept next` goes from a value to the next one until a value is accepted or there is no next one.
Where every step lowers a rank it comes to its end, and it finds an accepted value exactly when the chain has
one (`follow_decides`). -/

namespace Lib

variable {α : Type*}

/-- Follow `next` until a value is accepted; `none`: the steps were too few. -/
def follow (accept : α → Bool) (next : α → Option α) : ℕ → α → Option Bool
  | 0, _ => none
  | steps + 1, a =>
      if accept a then some true
      else
        match next a with
        | none => some false
        | some b => follow accept next steps b

variable {accept : α → Bool} {next : α → Option α}

/-- From where there is no next value the chain leads nowhere else. -/
theorem chain_of_last {a b : α} (h : next a = none)
    (hchain : Relation.ReflTransGen (fun x y => next x = some y) a b) : b = a := by
  rcases Relation.ReflTransGen.cases_head hchain with heq | ⟨c, hc, -⟩
  · exact heq.symm
  · rw [h] at hc
    cases hc

/-- There is one chain only: it goes on from the next value. -/
theorem chain_of_next {a b c : α} (h : next a = some b) (hne : c ≠ a)
    (hchain : Relation.ReflTransGen (fun x y => next x = some y) a c) :
    Relation.ReflTransGen (fun x y => next x = some y) b c := by
  rcases Relation.ReflTransGen.cases_head hchain with heq | ⟨b', hb', hrest⟩
  · exact absurd heq.symm hne
  · rw [h] at hb'
    obtain rfl := Option.some.inj hb'
    exact hrest

/-- **Following a chain decides** whether it has an accepted value, within as many steps as the rank says. -/
theorem follow_decides (rank : α → ℕ) (hrank : ∀ a b, next a = some b → rank b < rank a) {steps : ℕ} {a : α}
    (h : rank a < steps) : ∃ found, follow accept next steps a = some found ∧
      (found = true ↔ ∃ b, Relation.ReflTransGen (fun x y => next x = some y) a b ∧ accept b = true) := by
  induction steps generalizing a with
  | zero => exact absurd h (Nat.not_lt_zero _)
  | succ steps ih =>
      unfold follow
      by_cases ha : accept a = true
      · rw [if_pos ha]
        exact ⟨true, rfl, iff_of_true rfl ⟨a, .refl, ha⟩⟩
      · rw [if_neg ha]
        cases hnext : next a with
        | none =>
            refine ⟨false, rfl, iff_of_false Bool.false_ne_true ?_⟩
            rintro ⟨b, hchain, hb⟩
            rw [chain_of_last hnext hchain] at hb
            exact ha hb
        | some b =>
            have hlower := hrank a b hnext
            obtain ⟨found, hfollow, hfound⟩ := @ih b (by omega)
            refine ⟨found, hfollow, hfound.trans ⟨?_, ?_⟩⟩
            · rintro ⟨c, hchain, hc⟩
              exact ⟨c, hchain.head hnext, hc⟩
            · rintro ⟨c, hchain, hc⟩
              refine ⟨c, chain_of_next hnext ?_ hchain, hc⟩
              rintro rfl
              exact ha hc

end Lib
