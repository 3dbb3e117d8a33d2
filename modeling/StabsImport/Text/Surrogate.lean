/-!
# Surrogates

A code point from the surrogate range is no character, and yet an escape can name one that has no
partner. In a text two characters stand for it: a mark, and the counterpart of the code in the
private range that follows the surrogates. The mark itself is written twice. Whatever writes,
counts or compares codes takes those that are meant.
-/

namespace StabsImport.Text

def isHigh (n : Nat) : Bool := 0xD800 ≤ n && n ≤ 0xDBFF

def isLow (n : Nat) : Bool := 0xDC00 ≤ n && n ≤ 0xDFFF

def isSurrogate (n : Nat) : Bool := 0xD800 ≤ n && n ≤ 0xDFFF

/-- Stands before the counterpart of a surrogate. -/
def surrogateMark : Char := Char.ofNat 0xEFFFE

/-- How far the counterparts are from the surrogates. -/
def counterpartShift : Nat := 0x1000

/-- What stands for a character in a text. -/
def charsOfChar (c : Char) : List Char := if c = surrogateMark then [c, c] else [c]

/-- What stands for a code in a text. -/
def charsOfCode (n : Nat) : List Char :=
  if isSurrogate n then [surrogateMark, Char.ofNat (n + counterpartShift)]
  else charsOfChar (Char.ofNat n)

/-- The text of these characters. -/
def ofChars (cs : List Char) : String := String.ofList (cs.flatMap charsOfChar)

/-- The codes that characters of a text stand for. -/
def codesOf : List Char → List Nat
  | [] => []
  | [c] => [c.toNat]
  | mark :: c :: rest =>
      if mark = surrogateMark && c = surrogateMark then c.toNat :: codesOf rest
      else if mark = surrogateMark && isSurrogate (c.toNat - counterpartShift) then
        (c.toNat - counterpartShift) :: codesOf rest
      else mark.toNat :: codesOf (c :: rest)

def codes (s : String) : List Nat := codesOf s.toList

/-- Texts are put in order by their codes. -/
def leCodes (a b : String) : Bool := !decide (codes b < codes a)

/-- Stands for what is no character. -/
def replacement : Char := Char.ofNat 0xFFFD

/-- The characters of a text; a surrogate is none. -/
def toChars (s : String) : List Char :=
  (codes s).map fun n => if isSurrogate n then replacement else Char.ofNat n

theorem codesOf_cons {c : Char} (h : c ≠ surrogateMark) (rest : List Char) :
    codesOf (c :: rest) = c.toNat :: codesOf rest := by
  cases rest <;> simp [codesOf, h]

theorem codesOf_charsOfChar_append (c : Char) (rest : List Char) :
    codesOf (charsOfChar c ++ rest) = c.toNat :: codesOf rest := by
  by_cases h : c = surrogateMark
  · simp [charsOfChar, codesOf, h]
  · simpa [charsOfChar, h] using codesOf_cons h rest

theorem codes_ofChars (cs : List Char) : codes (ofChars cs) = cs.map Char.toNat := by
  simp only [codes, ofChars, String.toList_ofList]
  induction cs with
  | nil => rfl
  | cons c cs ih => rw [List.flatMap_cons, codesOf_charsOfChar_append, ih, List.map_cons]

theorem toChars_ofChars (cs : List Char) : toChars (ofChars cs) = cs := by
  have isNone (c : Char) : isSurrogate c.toNat = false := by
    have := c.valid
    simp only [isSurrogate, Bool.and_eq_false_iff, decide_eq_false_iff_not]
    simp only [UInt32.isValidChar, Nat.isValidChar] at this
    change ¬ 0xD800 ≤ c.val.toNat ∨ ¬ c.val.toNat ≤ 0xDFFF
    omega
  rw [toChars, codes_ofChars, List.map_map]
  exact (List.map_congr_left fun c _ => by simp [isNone c]).trans (List.map_id cs)

end StabsImport.Text
