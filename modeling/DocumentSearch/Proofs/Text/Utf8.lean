import DocumentSearch.Text.Utf8

/-!
# Reading encoded text

The bytes that spell a text are read as its characters. Each character takes one to four bytes; the
first one says how many are owed and between what bounds the next may be, and the bounds leave room
for every character that is spelled this way, and for nothing else. So no byte of a body is lost,
whether it spells a text or not.
-/

namespace DocumentSearch.Utf8

/-! ### One byte -/

section Steps

variable {b : UInt8} {p : Pending} (done : List Symbol) (rest : List UInt8)

theorem decodeFrom_start_char {s : Symbol} (h : start b = .inl s) :
    decodeFrom done none (b :: rest) = decodeFrom (s :: done) none rest := by
  rw [decodeFrom]
  simp only [h]

theorem decodeFrom_start_pending (h : start b = .inr p) :
    decodeFrom done none (b :: rest) = decodeFrom done (some p) rest := by
  rw [decodeFrom]
  simp only [h]

/-- The last byte that was owed makes the character. -/
theorem decodeFrom_ending (howed : p.owed = 1) (hrange : p.low ≤ b.toNat ∧ b.toNat ≤ p.high) :
    decodeFrom done (some p) (b :: rest) =
      decodeFrom (.char (Char.ofNat (p.code * 64 + b.toNat % 64)) :: done) none rest := by
  rw [decodeFrom]
  simp only [hrange, and_self, if_true, howed]

theorem decodeFrom_owing (howed : p.owed ≠ 1) (hrange : p.low ≤ b.toNat ∧ b.toNat ≤ p.high) :
    decodeFrom done (some p) (b :: rest) =
      decodeFrom done (some ⟨p.bytes ++ [b], p.owed - 1, 0x80, 0xBF,
        p.code * 64 + b.toNat % 64⟩) rest := by
  rw [decodeFrom]
  simp only [hrange, and_self, if_true, howed, if_false]

/-- A byte that is out of bounds leaves a stray run behind, and begins something itself. -/
theorem decodeFrom_broken (hrange : ¬(p.low ≤ b.toNat ∧ b.toNat ≤ p.high)) :
    decodeFrom done (some p) (b :: rest) =
      decodeFrom (.stray p.bytes :: done) none (b :: rest) := by
  rw [decodeFrom, decodeFrom]
  simp only [hrange, if_false]

variable {m : Nat}

theorem toNat_continuation (hm : m < 64) : (UInt8.ofNat (0x80 + m)).toNat = 0x80 + m :=
  UInt8.toNat_ofNat_of_lt' (by rw [UInt8.size]; omega)

theorem decodeFrom_last (hm : m < 64) (howed : p.owed = 1)
    (hrange : p.low ≤ 0x80 + m ∧ 0x80 + m ≤ p.high) :
    decodeFrom done (some p) (UInt8.ofNat (0x80 + m) :: rest) =
      decodeFrom (.char (Char.ofNat (p.code * 64 + m)) :: done) none rest := by
  have hbits : (0x80 + m) % 64 = m := by omega
  rw [← toNat_continuation hm] at hrange
  rw [decodeFrom_ending done rest howed hrange, toNat_continuation hm, hbits]

theorem decodeFrom_more (hm : m < 64) (howed : p.owed ≠ 1)
    (hrange : p.low ≤ 0x80 + m ∧ 0x80 + m ≤ p.high) :
    decodeFrom done (some p) (UInt8.ofNat (0x80 + m) :: rest) =
      decodeFrom done (some ⟨p.bytes ++ [UInt8.ofNat (0x80 + m)], p.owed - 1, 0x80, 0xBF,
        p.code * 64 + m⟩) rest := by
  have hbits : (0x80 + m) % 64 = m := by omega
  rw [← toNat_continuation hm] at hrange
  rw [decodeFrom_owing done rest howed hrange, toNat_continuation hm, hbits]

end Steps

/-! ### One character -/

section Characters

variable {n : Nat}

theorem start_single (h : n < 0x80) : start (UInt8.ofNat n) = .inl (.char (Char.ofNat n)) := by
  rw [start, UInt8.toNat_ofNat_of_lt' (by rw [UInt8.size]; omega)]
  exact if_pos h

theorem start_two (hlow : 2 ≤ n) (hhigh : n < 32) :
    start (UInt8.ofNat (0xC0 + n)) = .inr ⟨[UInt8.ofNat (0xC0 + n)], 1, 0x80, 0xBF, n⟩ := by
  have hfirst : ¬0xC0 + n < 0x80 ∧ ¬0xC0 + n < 0xC2 ∧ 0xC0 + n < 0xE0 := by omega
  rw [start, UInt8.toNat_ofNat_of_lt' (by rw [UInt8.size]; omega)]
  simp only [hfirst, if_true, if_false, Nat.add_sub_cancel_left]

/-- The bounds of the second byte of three: they leave out longer spellings and the surrogates. -/
theorem start_three (h : n < 16) :
    ∃ low high, start (UInt8.ofNat (0xE0 + n)) = .inr ⟨[UInt8.ofNat (0xE0 + n)], 2, low, high, n⟩ ∧
      low = (if n = 0 then 0xA0 else 0x80) ∧ high = (if n = 13 then 0x9F else 0xBF) := by
  refine ⟨_, _, ?_, rfl, rfl⟩
  have hall : ∀ n < 16, start (UInt8.ofNat (0xE0 + n)) = .inr ⟨[UInt8.ofNat (0xE0 + n)], 2,
      if n = 0 then 0xA0 else 0x80, if n = 13 then 0x9F else 0xBF, n⟩ := by decide
  exact hall n h

theorem start_four (h : n < 5) :
    ∃ low high, start (UInt8.ofNat (0xF0 + n)) = .inr ⟨[UInt8.ofNat (0xF0 + n)], 3, low, high, n⟩ ∧
      low = (if n = 0 then 0x90 else 0x80) ∧ high = (if n = 4 then 0x8F else 0xBF) := by
  refine ⟨_, _, ?_, rfl, rfl⟩
  have hall : ∀ n < 5, start (UInt8.ofNat (0xF0 + n)) = .inr ⟨[UInt8.ofNat (0xF0 + n)], 3,
      if n = 0 then 0x90 else 0x80, if n = 4 then 0x8F else 0xBF, n⟩ := by decide
  exact hall n h

/-- A number of no surrogate is that of a character, and there is none from 0x110000 on. -/
theorem toNat_cases (c : Char) : c.toNat < 0xD800 ∨ 0xE000 ≤ c.toNat ∧ c.toNat < 0x110000 := by
  rcases c.valid with h | ⟨hlow, hhigh⟩
  · exact .inl h
  · exact .inr ⟨hlow, hhigh⟩

/-- The bytes of a character are read as that character. -/
theorem decodeFrom_encodeChar (c : Char) (done : List Symbol) (rest : List UInt8) :
    decodeFrom done none (encodeChar c ++ rest) = decodeFrom (.char c :: done) none rest := by
  have hvalid := toNat_cases c
  rw [encodeChar]
  split
  next h =>
    rw [List.singleton_append, decodeFrom_start_char done rest (start_single h), Char.ofNat_toNat]
  split
  next _ h =>
    have hcode : c.toNat / 64 * 64 + c.toNat % 64 = c.toNat := by omega
    have hstart := start_two (n := c.toNat / 64) (by omega) (by omega)
    simp only [List.cons_append, List.nil_append]
    rw [decodeFrom_start_pending done _ hstart,
      decodeFrom_last done rest (by omega) rfl (by simp only; omega)]
    simp only [hcode, Char.ofNat_toNat]
  split
  next _ _ h =>
    have hcode : (c.toNat / 4096 * 64 + c.toNat / 64 % 64) * 64 + c.toNat % 64 = c.toNat := by omega
    obtain ⟨low, high, hstart, hlow, hhigh⟩ := start_three (n := c.toNat / 4096) (by omega)
    have hrange : low ≤ 0x80 + c.toNat / 64 % 64 ∧ 0x80 + c.toNat / 64 % 64 ≤ high := by
      split at hlow <;> split at hhigh <;> omega
    simp only [List.cons_append, List.nil_append]
    rw [decodeFrom_start_pending done _ hstart,
      decodeFrom_more done _ (by omega) (by simp) hrange,
      decodeFrom_last done rest (by omega) rfl (by simp only; omega)]
    simp only [hcode, Char.ofNat_toNat]
  next _ _ h =>
    have hcode : ((c.toNat / 262144 * 64 + c.toNat / 4096 % 64) * 64 + c.toNat / 64 % 64) * 64 +
        c.toNat % 64 = c.toNat := by omega
    obtain ⟨low, high, hstart, hlow, hhigh⟩ := start_four (n := c.toNat / 262144) (by omega)
    have hrange : low ≤ 0x80 + c.toNat / 4096 % 64 ∧ 0x80 + c.toNat / 4096 % 64 ≤ high := by
      split at hlow <;> split at hhigh <;> omega
    simp only [List.cons_append, List.nil_append]
    rw [decodeFrom_start_pending done _ hstart,
      decodeFrom_more done _ (by omega) (by simp) hrange,
      decodeFrom_more done _ (by omega) (by simp) (by simp only; omega),
      decodeFrom_last done rest (by omega) rfl (by simp only; omega)]
    simp only [hcode, Char.ofNat_toNat]

end Characters

/-! ### Texts -/

theorem decodeFrom_encode (cs : List Char) (done : List Symbol) :
    decodeFrom done none (cs.flatMap encodeChar) = done.reverse ++ cs.map .char := by
  induction cs generalizing done with
  | nil => simp [decodeFrom]
  | cons c cs ih =>
    rw [List.flatMap_cons, decodeFrom_encodeChar, ih, List.reverse_cons, List.append_assoc]
    rfl

/-- The bytes of a text are read as its characters. -/
theorem decode_encode (s : String) : decode (encode s) = symbols s :=
  decodeFrom_encode s.toList []

theorem text?_symbols (s : String) : text? (symbols s) = some s := by
  have hread : ∀ cs : List Char, (cs.map Symbol.char).mapM Symbol.char? = some cs := by
    intro cs
    induction cs with
    | nil => rfl
    | cons c cs ih => rw [List.map_cons, List.mapM_cons, ih]; rfl
  rw [text?, symbols, hread, Option.map_some, String.ofList_toList]

/-! ### No byte is lost -/

/-- However the bytes come that are owed, the first from `low` to `high`, they and the `bytes`
before them spell the character that they are taken for. -/
def Completes : (owed : Nat) → (bytes : List UInt8) → (low high code : Nat) → Prop
  | 0, bytes, _, _, code => encodeChar (Char.ofNat code) = bytes
  | owed + 1, bytes, low, high, code => ∀ b : UInt8, low ≤ b.toNat → b.toNat ≤ high →
    Completes owed (bytes ++ [b]) 0x80 0xBF (code * 64 + b.toNat % 64)

/-- What has been read of a character is a part of its spelling. -/
def Pending.Sound (p : Pending) : Prop :=
  p.owed ≠ 0 ∧ Completes p.owed p.bytes p.low p.high p.code

theorem toNat_ofNat_of_valid {n : Nat} (h : n < 0xD800 ∨ 0xE000 ≤ n ∧ n < 0x110000) :
    (Char.ofNat n).toNat = n := by
  have hvalid : n.isValidChar := by
    rcases h with h | ⟨hlow, hhigh⟩
    · exact .inl h
    · exact .inr ⟨by omega, hhigh⟩
  rw [Char.ofNat, dif_pos hvalid]
  rfl

theorem ofNat_eq_of_toNat {n : Nat} {b : UInt8} (h : n = b.toNat) : UInt8.ofNat n = b := by
  rw [h, UInt8.ofNat_toNat]

section Starting

variable {b : UInt8} {low high code : Nat}

theorem sound_two (h : 0xC2 ≤ b.toNat ∧ b.toNat < 0xE0) :
    Pending.Sound ⟨[b], 1, 0x80, 0xBF, b.toNat - 0xC0⟩ := by
  refine ⟨Nat.one_ne_zero, fun c hc hc' => ?_⟩
  dsimp only at hc hc'
  have hcode := toNat_ofNat_of_valid (n := (b.toNat - 0xC0) * 64 + c.toNat % 64) (by omega)
  rw [Completes, encodeChar, hcode, if_neg (by omega), if_pos (by omega),
    ofNat_eq_of_toNat (b := b) (by omega), ofNat_eq_of_toNat (b := c) (by omega)]
  rfl

/-- The bounds leave out spellings of three bytes that are too long, and the surrogates. -/
theorem sound_three (h : 0xE0 ≤ b.toNat ∧ b.toNat < 0xF0 ∧ code = b.toNat - 0xE0)
    (hlow : 0x80 ≤ low ∧ (b.toNat = 0xE0 → 0xA0 ≤ low))
    (hhigh : high ≤ 0xBF ∧ (b.toNat = 0xED → high ≤ 0x9F)) :
    Pending.Sound ⟨[b], 2, low, high, code⟩ := by
  refine ⟨Nat.succ_ne_zero 1, fun c hc hc' d hd hd' => ?_⟩
  dsimp only at hc hc'
  have hcode := toNat_ofNat_of_valid (n := (code * 64 + c.toNat % 64) * 64 + d.toNat % 64)
    (by omega)
  rw [Completes, encodeChar, hcode, if_neg (by omega), if_neg (by omega), if_pos (by omega),
    ofNat_eq_of_toNat (b := b) (by omega), ofNat_eq_of_toNat (b := c) (by omega),
    ofNat_eq_of_toNat (b := d) (by omega)]
  rfl

/-- The bounds leave out spellings of four bytes that are too long, and all above U+10FFFF. -/
theorem sound_four (h : 0xF0 ≤ b.toNat ∧ b.toNat ≤ 0xF4 ∧ code = b.toNat - 0xF0)
    (hlow : 0x80 ≤ low ∧ (b.toNat = 0xF0 → 0x90 ≤ low))
    (hhigh : high ≤ 0xBF ∧ (b.toNat = 0xF4 → high ≤ 0x8F)) :
    Pending.Sound ⟨[b], 3, low, high, code⟩ := by
  refine ⟨Nat.succ_ne_zero 2, fun c hc hc' d hd hd' e he he' => ?_⟩
  dsimp only at hc hc'
  have hcode := toNat_ofNat_of_valid
    (n := ((code * 64 + c.toNat % 64) * 64 + d.toNat % 64) * 64 + e.toNat % 64) (by omega)
  rw [Completes, encodeChar, hcode, if_neg (by omega), if_neg (by omega), if_neg (by omega),
    ofNat_eq_of_toNat (b := b) (by omega), ofNat_eq_of_toNat (b := c) (by omega),
    ofNat_eq_of_toNat (b := d) (by omega), ofNat_eq_of_toNat (b := e) (by omega)]
  rfl

theorem bytes_of_start {s : Symbol} (h : start b = .inl s) : s.bytes = [b] := by
  rw [start] at h
  split at h
  next hsmall =>
    cases h
    rw [Symbol.bytes, encodeChar, toNat_ofNat_of_valid (by omega), if_pos hsmall, UInt8.ofNat_toNat]
  iterate 8
    split at h
    next => cases h <;> rfl
  cases h
  rfl

theorem sound_of_start {p : Pending} (h : start b = .inr p) : p.bytes = [b] ∧ p.Sound := by
  rw [start] at h
  iterate 2
    split at h
    next => cases h
  split at h
  next =>
    cases h
    exact ⟨rfl, sound_two (by omega)⟩
  iterate 3
    split at h
    next =>
      cases h
      exact ⟨rfl, sound_three (by omega) ⟨by decide, by omega⟩ ⟨by decide, by omega⟩⟩
  iterate 3
    split at h
    next =>
      cases h
      exact ⟨rfl, sound_four (by omega) ⟨by decide, by omega⟩ ⟨by decide, by omega⟩⟩
  cases h

end Starting

theorem Pending.Sound.bytes_of_last {p : Pending} (h : p.Sound) (howed : p.owed = 1) {b : UInt8}
    (hb : p.low ≤ b.toNat ∧ b.toNat ≤ p.high) :
    encodeChar (Char.ofNat (p.code * 64 + b.toNat % 64)) = p.bytes ++ [b] := by
  obtain ⟨-, hcompletes⟩ := h
  rw [howed] at hcompletes
  exact hcompletes b hb.1 hb.2

theorem Pending.Sound.more {p : Pending} (h : p.Sound) (howed : p.owed ≠ 1) {b : UInt8}
    (hb : p.low ≤ b.toNat ∧ b.toNat ≤ p.high) :
    Pending.Sound ⟨p.bytes ++ [b], p.owed - 1, 0x80, 0xBF, p.code * 64 + b.toNat % 64⟩ := by
  obtain ⟨hpos, hcompletes⟩ := h
  obtain ⟨owed, hsucc⟩ : ∃ owed, p.owed = owed + 1 := ⟨p.owed - 1, by omega⟩
  have howed' : p.owed - 1 = owed := by omega
  rw [hsucc] at hcompletes
  refine ⟨by dsimp only; omega, ?_⟩
  dsimp only
  rw [howed']
  exact hcompletes b hb.1 hb.2

/-- The bytes of the symbols are the bytes that have been read. -/
theorem bytes_decodeFrom (done : List Symbol) (pending : Option Pending) (rest : List UInt8)
    (hpending : ∀ p, pending = some p → p.Sound) :
    (decodeFrom done pending rest).flatMap Symbol.bytes =
      done.reverse.flatMap Symbol.bytes ++ ((pending.map Pending.bytes).getD [] ++ rest) := by
  induction rest generalizing done pending with
  | nil => cases pending <;> simp [decodeFrom, Symbol.bytes]
  | cons b rest ih =>
    -- A byte that goes on with nothing pending begins a symbol of its own.
    have hfresh (done : List Symbol) : (decodeFrom done none (b :: rest)).flatMap Symbol.bytes =
        done.reverse.flatMap Symbol.bytes ++ b :: rest := by
      cases hstart : start b with
      | inl s =>
        rw [decodeFrom_start_char done rest hstart, ih _ none (by simp)]
        simp [bytes_of_start hstart]
      | inr p =>
        obtain ⟨hbytes, hsound⟩ := sound_of_start hstart
        rw [decodeFrom_start_pending done rest hstart, ih done (some p) (by simpa using hsound)]
        simp [hbytes]
    cases pending with
    | none => exact hfresh done
    | some p =>
      have hsound := hpending p rfl
      by_cases hrange : p.low ≤ b.toNat ∧ b.toNat ≤ p.high
      · by_cases howed : p.owed = 1
        · rw [decodeFrom_ending done rest howed hrange, ih _ none (by simp)]
          simp [Symbol.bytes, hsound.bytes_of_last howed hrange]
        · rw [decodeFrom_owing done rest howed hrange,
            ih _ _ (by simpa using hsound.more howed hrange)]
          simp
      · rw [decodeFrom_broken done rest hrange, hfresh]
        simp [Symbol.bytes]

/-- The bytes of the symbols of a body, joined, are the body. -/
theorem bytes_decode (bytes : List UInt8) : (decode bytes).flatMap Symbol.bytes = bytes := by
  rw [decode, bytes_decodeFrom [] none bytes (by simp)]
  rfl

theorem bytes_symbols (s : String) : (symbols s).flatMap Symbol.bytes = encode s := by
  rw [symbols, encode, List.flatMap_map]
  rfl

theorem eq_map_char_of_mapM {xs : List Symbol} {cs : List Char}
    (h : xs.mapM Symbol.char? = some cs) : xs = cs.map .char := by
  induction xs generalizing cs with
  | nil =>
    obtain rfl := Option.some.inj h
    rfl
  | cons x xs ih =>
    rw [List.mapM_cons] at h
    obtain ⟨c, hc, h⟩ := Option.bind_eq_some_iff.mp h
    obtain ⟨rest, hrest, h⟩ := Option.bind_eq_some_iff.mp h
    obtain rfl := Option.some.inj h
    cases x with
    | char c' =>
      obtain rfl := Option.some.inj hc
      rw [List.map_cons, ← ih hrest]
    | stray => cases hc

theorem symbols_of_text? {xs : List Symbol} {s : String} (h : text? xs = some s) :
    xs = symbols s := by
  obtain ⟨cs, hcs, rfl⟩ := Option.map_eq_some_iff.mp h
  rw [symbols, String.toList_ofList]
  exact eq_map_char_of_mapM hcs

end DocumentSearch.Utf8
