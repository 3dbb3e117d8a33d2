import Mathlib.Logic.Function.Basic
import StabsImport.Text.Integer

/-!
# Hexadecimal numbers

What is written in hexadecimal reads back, so different numbers are written differently, and none
with white space in it.
-/

namespace StabsImport

namespace Text

theorem hexDigit?_digitChar {d : Nat} (h : d < 16) : hexDigit? d.digitChar = some d := by
  revert h
  revert d
  decide

/-- Reading a further digit after others have been read. -/
theorem ofBaseAux?_append_digitChar {d : Nat} (h : d < 16) {acc n : Nat} {cs : List Char}
    (read : ofBaseAux? 16 acc cs = some n) :
    ofBaseAux? 16 acc (cs ++ [d.digitChar]) = some (16 * n + d) := by
  induction cs generalizing acc with
  | nil =>
      cases read
      simp [ofBaseAux?, hexDigit?_digitChar h, h]
  | cons c cs ih =>
      simp only [ofBaseAux?, List.cons_append] at read ⊢
      split at read
      · split at read
        · next hlt => simpa [hlt] using ih read
        · cases read
      · cases read

/-- What is written in hexadecimal reads back. -/
theorem ofBaseAux?_toDigits (n : Nat) : ofBaseAux? 16 0 (Nat.toDigits 16 n) = some n := by
  induction n using Nat.strongRecOn with
  | ind n ih =>
      by_cases h : n < 16
      · simp [Nat.toDigits_of_lt_base h, ofBaseAux?, hexDigit?_digitChar h, h]
      · have earlier := ih (n / 16) (by omega)
        have digit : n % 16 < 16 := Nat.mod_lt n (by omega)
        rw [Nat.toDigits_of_base_le (by omega) (by omega),
          ofBaseAux?_append_digitChar digit earlier, Nat.div_add_mod]

theorem hexDigits_chars {acc n : Nat} {cs : List Char} (read : ofBaseAux? 16 acc cs = some n) :
    ∀ c ∈ cs, hexDigit? c ≠ none := by
  induction cs generalizing acc with
  | nil => exact fun _ h => absurd h List.not_mem_nil
  | cons c cs ih =>
      rw [ofBaseAux?] at read
      split at read
      · next d hd =>
          split at read
          · exact List.forall_mem_cons.mpr ⟨by simp [hd], ih read⟩
          · cases read
      · cases read

theorem isBlank_of_hexDigit {c : Char} (h : hexDigit? c ≠ none) : isBlank c = false := by
  have digit : (48 ≤ c.toNat ∧ c.toNat ≤ 57) ∨ (97 ≤ c.toNat ∧ c.toNat ≤ 102) ∨
      (65 ≤ c.toNat ∧ c.toNat ≤ 70) := by
    have range (low high : Char) (between : (low ≤ c && c ≤ high) = true) :
        low.toNat ≤ c.toNat ∧ c.toNat ≤ high.toNat := by
      simpa [Char.le_def, UInt32.le_iff_toNat_le] using between
    unfold hexDigit? at h
    split at h
    · next decimal => exact .inl (by simpa [Char.isDigit, UInt32.le_iff_toNat_le] using decimal)
    · split at h
      · next small => exact .inr (.inl (range 'a' 'f' small))
      · split at h
        · next capital => exact .inr (.inr (range 'A' 'F' capital))
        · exact absurd rfl h
  simp only [isBlank, Bool.or_eq_false_iff, Bool.and_eq_false_iff, decide_eq_false_iff_not,
    beq_eq_false_iff_ne]
  omega

/-- No digit is white space. -/
theorem isBlank_of_mem_hexDigits {n : Nat} {c : Char} (h : c ∈ (hexDigits n).toList) :
    isBlank c = false := by
  rw [hexDigits, String.toList_ofList] at h
  exact isBlank_of_hexDigit (hexDigits_chars (ofBaseAux?_toDigits n) c h)

theorem hexDigits_injective : Function.Injective hexDigits := by
  intro m n h
  have digits : Nat.toDigits 16 m = Nat.toDigits 16 n := by
    simpa [hexDigits] using congrArg String.toList h
  have read : some m = some n := by
    rw [← ofBaseAux?_toDigits m, ← ofBaseAux?_toDigits n, digits]
  exact Option.some.inj read

/-- No number starts with a sign. -/
theorem hexDigits_ne_minus (m n : Nat) : "-" ++ hexDigits m ≠ hexDigits n := by
  intro h
  have digits : '-' :: Nat.toDigits 16 m = Nat.toDigits 16 n := by
    simpa [hexDigits] using congrArg String.toList h
  have read := ofBaseAux?_toDigits n
  rw [← digits, ofBaseAux?, show hexDigit? '-' = none by decide] at read
  cases read

theorem hex_injective : Function.Injective hex := by
  have unsigned {m n : Nat} (h : "0x" ++ hexDigits m = "0x" ++ hexDigits n) : m = n :=
    hexDigits_injective (by simpa using h)
  have signed {m n : Nat} (h : "0x-" ++ hexDigits m = "0x-" ++ hexDigits n) : m = n :=
    hexDigits_injective (by simpa using h)
  have apart (m n : Nat) : "0x-" ++ hexDigits m ≠ "0x" ++ hexDigits n := by
    intro h
    rw [show "0x-" = "0x" ++ "-" by rfl, String.append_assoc] at h
    exact hexDigits_ne_minus m n (by simpa using h)
  intro m n h
  unfold hex at h
  split at h <;> split at h
  · have := signed h
    omega
  · exact absurd h (apart _ _)
  · exact absurd h.symm (apart _ _)
  · have := unsigned h
    omega

end Text

end StabsImport
