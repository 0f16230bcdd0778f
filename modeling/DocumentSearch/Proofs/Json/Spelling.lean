import DocumentSearch.Json.Reader
import DocumentSearch.Json.Writer

/-!
# What spelled values stand for

A string is spelled so that it stands for itself, whatever characters it holds, and so is a whole
number of up to 64 bits. What is written has no stray bytes, so its symbols are its characters.
-/

namespace DocumentSearch.Json

open Utf8 (Symbol)

/-! ### Strings -/

theorem hexValue?_lowerHex {n : Nat} (h : n < 16) : hexValue? (lowerHex n) = some n := by
  have hall : ∀ n < 16, hexValue? (lowerHex n) = some n := by decide
  exact hall n h

theorem HexDigit.value_ofNat (n : Nat) : (HexDigit.ofNat n).value = n % 16 := by
  have hread := hexValue?_lowerHex (Nat.mod_lt n (by decide : 0 < 16))
  simp [ofNat, value, hread]

theorem shortEscape_char_of_shortFor? {c : Char} {e : ShortEscape} (h : shortFor? c = some e) :
    e.char = c := by
  rw [shortFor?] at h
  iterate 7
    split at h
    · next hc =>
      cases h
      exact hc.symm
  cases h

/-- A character is spelled by one piece, which stands for it and for nothing else. -/
theorem charsFrom_ofChar (c : Char) (pieces : List Piece) (done : List Char) :
    charsFrom done (Piece.ofChar c :: pieces) = charsFrom (c :: done) pieces := by
  rw [Piece.ofChar]
  cases hshort : shortFor? c with
  | some e => simp [charsFrom, shortEscape_char_of_shortFor? hshort]
  | none =>
    by_cases hplain : 0x20 ≤ c.toNat ∧ c ≠ '"' ∧ c ≠ '\\'
    · simp [hplain, charsFrom]
    · have hquote : c ≠ '"' := by
        rintro rfl
        exact absurd hshort (by decide)
      have hslash : c ≠ '\\' := by
        rintro rfl
        exact absurd hshort (by decide)
      have hlow : c.toNat < 0x20 :=
        Nat.lt_of_not_le fun hle => hplain ⟨hle, hquote, hslash⟩
      have hunit : codeUnit (HexDigit.ofNat 0) (HexDigit.ofNat 0) (HexDigit.ofNat (c.toNat / 16))
          (HexDigit.ofNat c.toNat) = c.toNat := by
        simp only [codeUnit, HexDigit.value_ofNat]
        omega
      have hhigh : isHighSurrogate c.toNat = false := by simp [isHighSurrogate]; omega
      have hlower : isLowSurrogate c.toNat = false := by simp [isLowSurrogate]; omega
      simp only [dif_neg hplain]
      rw [charsFrom.eq_def]
      simp only [hunit, hhigh, hlower, Bool.false_eq_true, if_false, Char.ofNat_toNat]

theorem charsFrom_map_ofChar (cs : List Char) (done : List Char) :
    charsFrom done (cs.map Piece.ofChar) = some (done.reverse ++ cs) := by
  induction cs generalizing done with
  | nil => simp [charsFrom]
  | cons c cs ih =>
    rw [List.map_cons, charsFrom_ofChar, ih (c :: done), List.reverse_cons, List.append_assoc]
    rfl

theorem Quoted.value?_ofString (s : String) : value? (ofString s) = some s := by
  rw [value?, ofString, charsFrom_map_ofChar]
  simp

/-! ### Whole numbers -/

def appendDigit (n : Nat) (d : Digit) : Nat := n * 10 + d.val

theorem digitsValue_eq (ds : List Digit) : digitsValue ds = ds.foldl appendDigit 0 := rfl

theorem le_foldl_appendDigit (ds : List Digit) (n : Nat) : n ≤ ds.foldl appendDigit n := by
  induction ds generalizing n with
  | nil => exact Nat.le_refl n
  | cons d ds ih =>
    have hstep : n ≤ appendDigit n d := by rw [appendDigit]; omega
    exact Nat.le_trans hstep (ih (appendDigit n d))

/-- Nothing is spared of a number that fits 64 bits. -/
theorem absorb_eq (ds : List Digit) (n : Nat)
    (h : ds.foldl appendDigit n < 0x10000000000000000) :
    absorb n ds = (ds.foldl appendDigit n, []) := by
  induction ds generalizing n with
  | nil => rfl
  | cons d ds ih =>
    have hstep : n * 10 + d.val ≤ ds.foldl appendDigit (n * 10 + d.val) :=
      le_foldl_appendDigit ds _
    have hfits : n * 10 + d.val < 0x10000000000000000 := Nat.lt_of_le_of_lt hstep h
    rw [absorb, if_pos hfits]
    exact ih (n * 10 + d.val) h

/-- One step per digit is enough, and a number has fewer digits than it is large. -/
theorem foldl_digitsThen {steps n : Nat} (h : n < steps) (rest : List Digit) :
    (digitsThen steps n rest).foldl appendDigit 0 = rest.foldl appendDigit n := by
  induction steps generalizing n rest with
  | zero => omega
  | succ steps ih =>
    have hlast : appendDigit (n / 10) (Digit.ofNat n) = n := by
      simp only [appendDigit, Digit.ofNat]
      omega
    rw [digitsThen]
    split
    · have hzero : n / 10 = 0 := by omega
      rw [hzero] at hlast
      rw [List.foldl_cons, hlast]
    · have hless : n / 10 < steps := by omega
      rw [ih hless, List.foldl_cons, hlast]

theorem digitsValue_decimalDigits (n : Nat) : digitsValue (decimalDigits n) = n :=
  foldl_digitsThen (Nat.lt_succ_self n) []

theorem digitsValue_dropWhile (ds : List Digit) :
    digitsValue (ds.dropWhile (·.val = 0)) = digitsValue ds := by
  induction ds with
  | nil => rfl
  | cons d ds ih =>
    by_cases hd : d.val = 0
    · have hvalue : digitsValue (d :: ds) = digitsValue ds := by
        rw [digitsValue_eq, List.foldl_cons, appendDigit, hd]
        rfl
      rw [List.dropWhile_cons_of_pos (by simpa using hd), ih, hvalue]
    · rw [List.dropWhile_cons_of_neg (by simpa using hd)]

theorem Numeral.ofParts_spec (negative : Bool) (whole : List Digit)
    (fraction : Option (Digit × List Digit)) (exponent : Option Exponent) :
    ∃ n, ofParts negative whole fraction exponent = n ∧ n.negative = negative ∧
      n.fraction = fraction ∧ n.exponent = exponent ∧
      digitsValue (n.lead :: n.more) = digitsValue whole := by
  refine ⟨_, rfl, ?_⟩
  have hvalue := digitsValue_dropWhile whole
  rw [ofParts]
  cases hdigits : whole.dropWhile (·.val = 0) with
  | nil =>
    rw [hdigits] at hvalue
    exact ⟨rfl, rfl, rfl, hvalue⟩
  | cons d ds =>
    have hnonzero : d.val ≠ 0 := by
      have hhead := List.head?_dropWhile_not (fun d : Digit => decide (d.val = 0)) whole
      rw [hdigits] at hhead
      exact of_decide_eq_false hhead
    rw [hdigits] at hvalue
    have hcanonical : d.val = 0 → ds = [] := fun hzero => absurd hzero hnonzero
    simp only [dif_pos hcanonical]
    exact ⟨trivial, trivial, trivial, hvalue⟩

theorem Numeral.value?_ofInt {i : Int} (hlow : -0x8000000000000000 ≤ i)
    (hhigh : i < 0x10000000000000000) : (ofInt i).value? = some (.int i) := by
  obtain ⟨n, hn, hnegative, hfraction, hexponent, hdigits⟩ :=
    ofParts_spec (decide (i < 0)) (decimalDigits i.natAbs) none none
  rw [digitsValue_decimalDigits] at hdigits
  have habsorb : absorb 0 (n.lead :: n.more) = (i.natAbs, []) := by
    have hfits : digitsValue (n.lead :: n.more) < 0x10000000000000000 := by omega
    rw [absorb_eq _ _ hfits, ← digitsValue_eq, hdigits]
  rw [ofInt, hn, value?, habsorb]
  simp only [hfraction, hexponent, hnegative]
  by_cases hsign : i < 0
  · have hkept : ¬(i.natAbs = 0 ∨ 0x8000000000000000 < i.natAbs) := by omega
    have hvalue : -(i.natAbs : Int) = i := by omega
    simp only [hsign, hkept, hvalue, decide_true, not_true, if_true, if_false]
  · have hvalue : (i.natAbs : Int) = i := by omega
    simp [hsign, hvalue]

end DocumentSearch.Json
