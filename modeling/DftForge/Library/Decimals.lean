import Mathlib.Data.Nat.Digits.Defs
import Mathlib.Data.List.Basic

/-! # The decimal texts of integers -/
namespace DftForge.Library

theorem int_text (n : ℤ) :
    ∃ m : ℕ, (toString n).toList = (if n < 0 then ['-'] else []) ++ Nat.toDigits 10 m := by
  cases n with
  | ofNat m => exact ⟨m,Nat.toList_repr⟩
  | negSucc m =>
    refine ⟨m + 1,?_⟩
    rw [if_pos (Int.negSucc_lt_zero m)]
    simp [toString,Int.repr]

theorem int_text_ne (n : ℤ) : toString n ≠ "" := by
  intro h
  obtain ⟨m,hm⟩ := int_text n
  rw [h] at hm
  exact Nat.toDigits_ne_nil (List.append_eq_nil_iff.mp hm.symm).2

theorem mem_int_text {n : ℤ} {ch : Char} (h : ch ∈ (toString n).toList) : ch.isDigit = true ∨ ch = '-' := by
  obtain ⟨m,hm⟩ := int_text n
  rw [hm,List.mem_append] at h
  rcases h with hsign | hdigit
  · split_ifs at hsign
    · exact .inr (List.mem_singleton.mp hsign)
    · exact absurd hsign List.not_mem_nil
  · exact .inl (Nat.isDigit_of_mem_toDigits (by decide) (by decide) hdigit)

theorem not_mem_int_text (n : ℤ) {ch : Char} (h : ch.isDigit = false ∧ ch ≠ '-') :
    ch ∉ (toString n).toList := by
  intro hmem
  rcases mem_int_text hmem with hdigit | hminus
  · rw [h.1] at hdigit
    cases hdigit
  · exact h.2 hminus

end DftForge.Library
