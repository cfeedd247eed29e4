import RcaBackend.BundleStore

/-!
# UTF-8

`str.encode("utf-8")` writes each character in one to four bytes and refuses
surrogates. The strict decoder reads every encoded text back.
-/

namespace RcaBackend

deriving instance DecidableEq for Begun

/-- A code point that UTF-8 can encode. -/
def IsScalarValue (c : Nat) : Prop := isSurrogate c = false ∧ c < 0x110000

instance (c : Nat) : Decidable (IsScalarValue c) := inferInstanceAs (Decidable (_ ∧ _))

theorem ascii_isScalarValue {c : Nat} (ascii : c < 128) : IsScalarValue c := by
  constructor
  · simp only [isSurrogate, Bool.and_eq_false_iff, decide_eq_false_iff_not]
    omega
  · omega

/-! ## Which texts have an encoding -/

theorem encodeChar_isSome_iff (c : Nat) : (encodeChar c).isSome = true ↔ IsScalarValue c := by
  have surrogate : isSurrogate c = true ↔ 0xD800 ≤ c ∧ c ≤ 0xDFFF := by
    simp [isSurrogate]
  fun_cases encodeChar c with
  | case1 small => 
    simp only [Option.isSome_some, IsScalarValue, isSurrogate]
    simp
    omega
  | case2 _ small =>
    simp only [Option.isSome_some, IsScalarValue, isSurrogate]
    simp
    omega
  | case3 _ _ refused => simp [IsScalarValue, refused]
  | case4 _ _ plain small => simpa [IsScalarValue, plain] using Nat.lt_trans small (by decide)
  | case5 _ _ plain _ small => simpa [IsScalarValue, plain] using small
  | case6 _ _ _ _ large => simpa [IsScalarValue] using fun _ => Nat.le_of_not_lt large

/-- A text has an encoding exactly if its characters have one. -/
theorem encodeUtf8_isSome_iff (text : PyStr) :
    (encodeUtf8 text).isSome = true ↔ ∀ c ∈ text, IsScalarValue c := by
  induction text with
  | nil => simp [encodeUtf8]
  | cons c rest inductionHypothesis =>
    rw [List.forall_mem_cons, ← encodeChar_isSome_iff, ← inductionHypothesis, encodeUtf8]
    cases encodeChar c <;> cases encodeUtf8 rest <;> simp

/-! ## Decoding -/

/-- The first byte of a character of two bytes. -/
theorem firstByte_two : ∀ lead < 32, 2 ≤ lead →
    firstByte (UInt8.ofNat (0xC0 + lead)) = some (.inr ⟨1, lead, 0x80, 0xBF⟩) := by
  decide

/-- The first byte of a character of three bytes. -/
theorem firstByte_three : ∀ lead < 16,
    firstByte (UInt8.ofNat (0xE0 + lead)) = some (.inr ⟨2, lead,
      if lead = 0 then 0xA0 else 0x80, if lead = 13 then 0x9F else 0xBF⟩) := by
  decide

/-- The first byte of a character of four bytes. -/
theorem firstByte_four : ∀ lead < 5,
    firstByte (UInt8.ofNat (0xF0 + lead)) = some (.inr ⟨3, lead,
      if lead = 0 then 0x90 else 0x80, if lead = 4 then 0x8F else 0xBF⟩) := by
  decide

theorem firstByte_one : ∀ c < 128, firstByte (UInt8.ofNat c) = some (.inl c) := by
  decide

/-- A byte that continues a character adds six bits to it. -/
theorem decodeFrom_tail {begun : Begun} {low : Nat} (small : low < 64)
    (above : begun.least.toNat ≤ 0x80 + low) (below : 0x80 + low ≤ begun.greatest.toNat)
    (rest : List UInt8) :
    decodeFrom (some begun) (UInt8.ofNat (0x80 + low) :: rest) =
      if begun.owed = 1 then (decodeFrom none rest).map fun text => (begun.bits * 64 + low) :: text
      else decodeFrom (some ⟨begun.owed - 1, begun.bits * 64 + low, 0x80, 0xBF⟩) rest := by
  have size : 0x80 + low < UInt8.size := by
    simp only [UInt8.size]
    omega
  have bits : (UInt8.ofNat (0x80 + low)).toNat - 0x80 = low := by
    rw [UInt8.toNat_ofNat_of_lt' size]
    omega
  have fits : begun.least ≤ UInt8.ofNat (0x80 + low) ∧ UInt8.ofNat (0x80 + low) ≤ begun.greatest :=
    ⟨(UInt8.le_ofNat_iff size).mpr above, (UInt8.ofNat_le_iff size).mpr below⟩
  rw [decodeFrom, if_pos fits, bits]

/-- A last byte completes the character. -/
theorem decodeFrom_last {bits low : Nat} {least greatest : UInt8} (small : low < 64)
    (above : least.toNat ≤ 0x80 + low) (below : 0x80 + low ≤ greatest.toNat) (rest : List UInt8) :
    decodeFrom (some ⟨1, bits, least, greatest⟩) (UInt8.ofNat (0x80 + low) :: rest) =
      (decodeFrom none rest).map fun text => (bits * 64 + low) :: text := by
  rw [decodeFrom_tail small above below, if_pos rfl]

/-- A byte that is not the last one leaves the next to be any that continues. -/
theorem decodeFrom_more {owed bits low : Nat} {least greatest : UInt8} (small : low < 64)
    (above : least.toNat ≤ 0x80 + low) (below : 0x80 + low ≤ greatest.toNat) (rest : List UInt8) :
    decodeFrom (some ⟨owed + 2, bits, least, greatest⟩) (UInt8.ofNat (0x80 + low) :: rest) =
      decodeFrom (some ⟨owed + 1, bits * 64 + low, 0x80, 0xBF⟩) rest := by
  rw [decodeFrom_tail small above below, if_neg (by simp)]
  rfl

/-- Any six bits continue a character. -/
theorem tail_range {low : Nat} (small : low < 64) :
    (0x80 : UInt8).toNat ≤ 0x80 + low ∧ 0x80 + low ≤ (0xBF : UInt8).toNat := by
  have bounds : (0x80 : UInt8).toNat = 0x80 ∧ (0xBF : UInt8).toNat = 0xBF := by decide
  omega

/-- One character is read back from its bytes. -/
theorem decodeFrom_encodeChar {c : Nat} {bytes : List UInt8} (encoded : encodeChar c = some bytes)
    (rest : List UInt8) :
    decodeFrom none (bytes ++ rest) = (decodeFrom none rest).map (c :: ·) := by
  have six : ∀ n, n % 64 < 64 := fun n => Nat.mod_lt n (by decide)
  have last := tail_range (six c)
  have middle := tail_range (six (c / 64))
  revert encoded
  fun_cases encodeChar c with
  | case1 small =>
    intro encoded
    obtain rfl := Option.some.inj encoded
    rw [List.singleton_append, decodeFrom, firstByte_one c small]
  | case2 large small =>
    intro encoded
    obtain rfl := Option.some.inj encoded
    have whole : c / 64 * 64 + c % 64 = c := Nat.div_add_mod' c 64
    simp only [List.cons_append, List.nil_append]
    rw [decodeFrom, firstByte_two (c / 64) (by omega) (by omega)]
    simp only
    rw [decodeFrom_last (six c) last.1 last.2, whole]
  | case3 => simp
  | case4 _ large plain small =>
    intro encoded
    obtain rfl := Option.some.inj encoded
    have whole : (c / 4096 * 64 + c / 64 % 64) * 64 + c % 64 = c := by omega
    -- the first byte excludes what two bytes could write, and the surrogates
    have plain : ¬ (0xD800 ≤ c ∧ c ≤ 0xDFFF) := by simpa [isSurrogate] using plain
    have above : (if c / 4096 = 0 then 0xA0 else 0x80 : UInt8).toNat ≤ 0x80 + c / 64 % 64 := by
      split
      · have bound : (0xA0 : UInt8).toNat = 0xA0 := by decide
        omega
      · exact middle.1
    have below : 0x80 + c / 64 % 64 ≤ (if c / 4096 = 13 then 0x9F else 0xBF : UInt8).toNat := by
      split
      · have bound : (0x9F : UInt8).toNat = 0x9F := by decide
        omega
      · exact middle.2
    simp only [List.cons_append, List.nil_append]
    rw [decodeFrom, firstByte_three (c / 4096) (by omega)]
    simp only
    rw [decodeFrom_more (six (c / 64)) above below, decodeFrom_last (six c) last.1 last.2, whole]
  | case5 _ _ _ large small =>
    intro encoded
    obtain rfl := Option.some.inj encoded
    have whole : ((c / 262144 * 64 + c / 4096 % 64) * 64 + c / 64 % 64) * 64 + c % 64 = c := by
      omega
    have second := tail_range (six (c / 4096))
    -- the first byte excludes what three bytes could write, and what is no code point
    have above : (if c / 262144 = 0 then 0x90 else 0x80 : UInt8).toNat ≤ 0x80 + c / 4096 % 64 := by
      split
      · have bound : (0x90 : UInt8).toNat = 0x90 := by decide
        omega
      · exact second.1
    have below : 0x80 + c / 4096 % 64 ≤ (if c / 262144 = 4 then 0x8F else 0xBF : UInt8).toNat := by
      split
      · have bound : (0x8F : UInt8).toNat = 0x8F := by decide
        omega
      · exact second.2
    simp only [List.cons_append, List.nil_append]
    rw [decodeFrom, firstByte_four (c / 262144) (by omega)]
    simp only
    rw [decodeFrom_more (six (c / 4096)) above below,
      decodeFrom_more (six (c / 64)) middle.1 middle.2, decodeFrom_last (six c) last.1 last.2, whole]
  | case6 => simp

/-- A text is read back from its bytes. -/
theorem decodeUtf8_encodeUtf8 {text : PyStr} {bytes : List UInt8}
    (encoded : encodeUtf8 text = some bytes) : decodeUtf8 bytes = some text := by
  induction text generalizing bytes with
  | nil =>
    obtain rfl := Option.some.inj encoded
    rfl
  | cons c rest inductionHypothesis =>
    rw [encodeUtf8] at encoded
    split at encoded
    · rename_i first more one others
      obtain rfl := Option.some.inj encoded
      have read : decodeFrom none more = some rest := inductionHypothesis others
      rw [decodeUtf8, decodeFrom_encodeChar one, read]
      rfl
    · cases encoded

end RcaBackend
