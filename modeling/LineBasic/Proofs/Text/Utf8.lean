import LineBasic.Proofs.C.Literal
import LineBasic.Files.Compile

/-!
# Bytes and the source they stand for

The bytes of a text stand for that text and for no other, and no other bytes stand for a text
(`decode_eq_ok_iff`). A character has one to four bytes: its value is put together again from them
(`decodeFrom_char`), and bytes that are read begin with those of a character (`exists_char_of_decodeFrom`).

A file stands for the source that comes from its text when every line end is made a newline (`StandsFor`).
This is what is read from it (`decodeSource_eq_ok_iff`).
-/

namespace LineBasic.Text

set_option autoImplicit false

theorem toNat_ofNat {v : Nat} (valid : v < 0xd800 ∨ 0xdfff < v ∧ v < 0x110000) :
    (Char.ofNat v).toNat = v := by
  rw [Char.ofNat, dif_pos valid]
  rfl

namespace Utf8

variable {done text : List Char} {pos : Nat} {rest bytes : List UInt8}

theorem decodeFrom_plain {n : Nat} (small : n < 0x80) :
    decodeFrom done pos none (UInt8.ofNat n :: rest) =
      decodeFrom (Char.ofNat n :: done) (pos + 1) none rest := by
  have value : (UInt8.ofNat n).toNat = n := UInt8.toNat_ofNat_of_lt' (Nat.lt_trans small (by decide))
  simp only [decodeFrom, value, small, if_true]

theorem decodeFrom_lead {n : Nat} {pending : Pending} (byte : n < 256) (large : 0x80 ≤ n)
    (begins : lead? n = some pending) :
    decodeFrom done pos none (UInt8.ofNat n :: rest) =
      decodeFrom done (pos + 1) (some pending) rest := by
  have value : (UInt8.ofNat n).toNat = n := UInt8.toNat_ofNat_of_lt' byte
  simp only [decodeFrom, value, Nat.not_lt.2 large, if_false, begins]

theorem decodeFrom_middle (v value read missing : Nat) {low high : Nat} (least : low ≤ v % 64 + 128)
    (most : v % 64 + 128 ≤ high) :
    decodeFrom done pos (some ⟨value, read, missing + 2, low, high⟩) (UInt8.ofNat (v % 64 + 128) :: rest) =
      decodeFrom done (pos + 1) (some ⟨value * 64 + v % 64, read + 1, missing + 1, 0x80, 0xbf⟩) rest := by
  have byte : v % 64 + 128 < 256 := by omega
  have same : (UInt8.ofNat (v % 64 + 128)).toNat = v % 64 + 128 := UInt8.toNat_ofNat_of_lt' byte
  have digit : (v % 64 + 128) % 64 = v % 64 := by omega
  have more : missing + 2 ≠ 1 := by omega
  simp only [decodeFrom, same, least, most, and_self, if_true, more, if_false, digit]
  rfl

theorem decodeFrom_last (v value read : Nat) :
    decodeFrom done pos (some ⟨value, read, 1, 0x80, 0xbf⟩) (UInt8.ofNat (v % 64 + 128) :: rest) =
      decodeFrom (Char.ofNat (value * 64 + v % 64) :: done) (pos + 1) none rest := by
  have byte : v % 64 + 128 < 256 := by omega
  have same : (UInt8.ofNat (v % 64 + 128)).toNat = v % 64 + 128 := UInt8.toNat_ofNat_of_lt' byte
  have digit : (v % 64 + 128) % 64 = v % 64 := by omega
  have least : 0x80 ≤ v % 64 + 128 := by omega
  have most : v % 64 + 128 ≤ 0xbf := by omega
  simp only [decodeFrom, same, least, most, and_self, if_true, digit]

/-! ## Leading bytes -/

theorem lead?_two {n : Nat} (least : 0xc2 ≤ n) (most : n < 0xe0) :
    lead? n = some ⟨n - 0xc0, 1, 1, 0x80, 0xbf⟩ := by
  rw [lead?, if_neg (by omega), if_pos most]

/-- The byte behind the first of three excludes values that fewer bytes can hold, and surrogates. -/
theorem lead?_three {v : Nat} (least : 0x800 ≤ v) (most : v < 0x10000)
    (whole : v < 0xd800 ∨ 0xdfff < v) :
    ∃ low high, lead? (v / 4096 + 224) = some ⟨v / 4096, 1, 2, low, high⟩ ∧
      low ≤ v / 64 % 64 + 128 ∧ v / 64 % 64 + 128 ≤ high := by
  unfold lead?
  rw [if_neg (by omega), if_neg (by omega)]
  by_cases first : v / 4096 = 0
  · refine ⟨0xa0, 0xbf, ?_, by omega, by omega⟩
    rw [if_pos (by omega), first]
  rw [if_neg (by omega)]
  by_cases last : v / 4096 = 13
  · refine ⟨0x80, 0x9f, ?_, by omega, by omega⟩
    rw [if_pos (by omega), last]
  rw [if_neg (by omega), if_pos (by omega)]
  refine ⟨0x80, 0xbf, ?_, by omega, by omega⟩
  rw [Nat.add_sub_cancel]

/-- The byte behind the first of four excludes values that fewer bytes can hold, and those beyond the last
code point. -/
theorem lead?_four {v : Nat} (least : 0x10000 ≤ v) (most : v < 0x110000) :
    ∃ low high, lead? (v / 262144 + 240) = some ⟨v / 262144, 1, 3, low, high⟩ ∧
      low ≤ v / 4096 % 64 + 128 ∧ v / 4096 % 64 + 128 ≤ high := by
  unfold lead?
  rw [if_neg (by omega), if_neg (by omega), if_neg (by omega), if_neg (by omega), if_neg (by omega)]
  by_cases first : v / 262144 = 0
  · refine ⟨0x90, 0xbf, ?_, by omega, by omega⟩
    rw [if_pos (by omega), first]
  rw [if_neg (by omega)]
  by_cases last : v / 262144 = 4
  · refine ⟨0x80, 0x8f, ?_, by omega, by omega⟩
    rw [if_neg (by omega), if_pos (by omega), last]
  rw [if_pos (by omega)]
  refine ⟨0x80, 0xbf, ?_, by omega, by omega⟩
  rw [Nat.add_sub_cancel]

/-! ## Characters -/

theorem decodeFrom_char (done : List Char) (pos : Nat) (c : Char) (rest : List UInt8) :
    ∃ further, decodeFrom done pos none (String.utf8EncodeChar c ++ rest) =
      decodeFrom (c :: done) further none rest := by
  have value : c.val.toNat = c.toNat := rfl
  have again : Char.ofNat c.toNat = c := Char.ofNat_toNat c
  have valid : c.toNat < 0xd800 ∨ 0xdfff < c.toNat ∧ c.toNat < 0x110000 := c.valid
  simp only [String.utf8EncodeChar, value]
  generalize c.toNat = v at again valid
  split
  · rw [List.singleton_append, decodeFrom_plain (by omega), again]
    exact ⟨_, rfl⟩
  split
  · have lead : v / 64 % 32 = v / 64 := by omega
    have sum : (v / 64 + 192 - 192) * 64 + v % 64 = v := by omega
    have begins := @lead?_two (v / 64 + 192) (by omega) (by omega)
    simp only [lead, List.cons_append, List.nil_append]
    rw [decodeFrom_lead (by omega) (by omega) begins, decodeFrom_last, sum, again]
    exact ⟨_, rfl⟩
  split
  · have lead : v / 4096 % 16 = v / 4096 := by omega
    have sum : (v / 4096 * 64 + v / 64 % 64) * 64 + v % 64 = v := by omega
    obtain ⟨low, high, begins, least, most⟩ := @lead?_three v (by omega) (by omega) (by omega)
    simp only [lead, List.cons_append, List.nil_append]
    rw [decodeFrom_lead (by omega) (by omega) begins, decodeFrom_middle _ _ _ 0 least most,
      decodeFrom_last, sum, again]
    exact ⟨_, rfl⟩
  · have lead : v / 262144 % 8 = v / 262144 := by omega
    have sum : ((v / 262144 * 64 + v / 4096 % 64) * 64 + v / 64 % 64) * 64 + v % 64 = v := by omega
    have inside : v / 64 % 64 + 128 ≤ 0xbf := by omega
    obtain ⟨low, high, begins, least, most⟩ := @lead?_four v (by omega) (by omega)
    simp only [lead, List.cons_append, List.nil_append]
    rw [decodeFrom_lead (by omega) (by omega) begins, decodeFrom_middle _ _ _ 1 least most,
      decodeFrom_middle _ _ _ 0 (Nat.le_add_left _ _) inside, decodeFrom_last, sum, again]
    exact ⟨_, rfl⟩

/-! ## Bytes that are read -/

/-- What a byte begins that can begin a sequence: two, three or four bytes. The bounds of the second byte
exclude values that fewer bytes can hold, surrogates, and values beyond the last code point. -/
theorem lead?_cases {n : Nat} {pending : Pending} (begins : lead? n = some pending) :
    (0xc2 ≤ n ∧ n < 0xe0 ∧ pending = ⟨n - 0xc0, 1, 1, 0x80, 0xbf⟩) ∨
    (∃ low high, 0xe0 ≤ n ∧ n < 0xf0 ∧ pending = ⟨n - 0xe0, 1, 2, low, high⟩ ∧ 0x80 ≤ low ∧ high ≤ 0xbf ∧
      (n = 0xe0 → 0xa0 ≤ low) ∧ (n = 0xed → high ≤ 0x9f)) ∨
    (∃ low high, 0xf0 ≤ n ∧ n ≤ 0xf4 ∧ pending = ⟨n - 0xf0, 1, 3, low, high⟩ ∧ 0x80 ≤ low ∧ high ≤ 0xbf ∧
      (n = 0xf0 → 0x90 ≤ low) ∧ (n = 0xf4 → high ≤ 0x8f)) := by
  unfold lead? at begins
  split at begins
  · cases begins
  split at begins
  · exact .inl ⟨by omega, by omega, (Option.some.inj begins).symm⟩
  refine .inr ?_
  split at begins
  · subst n
    exact .inl ⟨0xa0, 0xbf, by decide, by decide, (Option.some.inj begins).symm, by decide⟩
  split at begins
  · subst n
    exact .inl ⟨0x80, 0x9f, by decide, by decide, (Option.some.inj begins).symm, by decide⟩
  split at begins
  · exact .inl ⟨0x80, 0xbf, by omega, by omega, (Option.some.inj begins).symm, by omega⟩
  refine .inr ?_
  split at begins
  · subst n
    exact ⟨0x90, 0xbf, by decide, by decide, (Option.some.inj begins).symm, by decide⟩
  split at begins
  · exact ⟨0x80, 0xbf, by omega, by omega, (Option.some.inj begins).symm, by omega⟩
  split at begins
  · subst n
    exact ⟨0x80, 0x8f, by decide, by decide, (Option.some.inj begins).symm, by decide⟩
  · cases begins

/-- A sequence that has begun takes a byte within its bounds. -/
theorem decodeFrom_pending_ok {value read missing low high : Nat}
    (reads : decodeFrom done pos (some ⟨value, read, missing, low, high⟩) bytes = .ok text) :
    ∃ n rest, bytes = UInt8.ofNat n :: rest ∧ low ≤ n ∧ n ≤ high ∧
      (if missing = 1 then decodeFrom (Char.ofNat (value * 64 + n % 64) :: done) (pos + 1) none rest
        else decodeFrom done (pos + 1)
          (some ⟨value * 64 + n % 64, read + 1, missing - 1, 0x80, 0xbf⟩) rest) = .ok text := by
  cases bytes with
  | nil => cases reads
  | cons byte rest =>
    rw [decodeFrom] at reads
    split at reads
    · rename_i within
      exact ⟨byte.toNat, rest, by simp, within.1, within.2, reads⟩
    · cases reads

theorem utf8EncodeChar_two {n a : Nat} (least : 0xc2 ≤ n) (most : n < 0xe0) (low : 0x80 ≤ a)
    (high : a ≤ 0xbf) :
    String.utf8EncodeChar (Char.ofNat ((n - 0xc0) * 64 + a % 64)) = [UInt8.ofNat n, UInt8.ofNat a] := by
  generalize sum : (n - 0xc0) * 64 + a % 64 = v
  have first : v / 64 % 32 + 192 = n := by omega
  have second : v % 64 + 128 = a := by omega
  rw [String.utf8EncodeChar, Char.toNat_val, toNat_ofNat (by omega), if_neg (by omega), if_pos (by omega), first, second]

theorem utf8EncodeChar_three {n a b : Nat} (least : 0xe0 ≤ n) (most : n < 0xf0) (low : 0x80 ≤ a)
    (high : a ≤ 0xbf) (long : n = 0xe0 → 0xa0 ≤ a) (whole : n = 0xed → a ≤ 0x9f) (low' : 0x80 ≤ b)
    (high' : b ≤ 0xbf) :
    String.utf8EncodeChar (Char.ofNat (((n - 0xe0) * 64 + a % 64) * 64 + b % 64)) =
      [UInt8.ofNat n, UInt8.ofNat a, UInt8.ofNat b] := by
  generalize sum : ((n - 0xe0) * 64 + a % 64) * 64 + b % 64 = v
  have first : v / 4096 % 16 + 224 = n := by omega
  have second : v / 64 % 64 + 128 = a := by omega
  have third : v % 64 + 128 = b := by omega
  rw [String.utf8EncodeChar, Char.toNat_val, toNat_ofNat (by omega), if_neg (by omega), if_neg (by omega), if_pos (by omega),
    first, second, third]

theorem utf8EncodeChar_four {n a b c : Nat} (least : 0xf0 ≤ n) (most : n ≤ 0xf4) (low : 0x80 ≤ a)
    (high : a ≤ 0xbf) (long : n = 0xf0 → 0x90 ≤ a) (last : n = 0xf4 → a ≤ 0x8f) (low' : 0x80 ≤ b)
    (high' : b ≤ 0xbf) (low'' : 0x80 ≤ c) (high'' : c ≤ 0xbf) :
    String.utf8EncodeChar (Char.ofNat ((((n - 0xf0) * 64 + a % 64) * 64 + b % 64) * 64 + c % 64)) =
      [UInt8.ofNat n, UInt8.ofNat a, UInt8.ofNat b, UInt8.ofNat c] := by
  generalize sum : (((n - 0xf0) * 64 + a % 64) * 64 + b % 64) * 64 + c % 64 = v
  have first : v / 262144 % 8 + 240 = n := by omega
  have second : v / 4096 % 64 + 128 = a := by omega
  have third : v / 64 % 64 + 128 = b := by omega
  have fourth : v % 64 + 128 = c := by omega
  rw [String.utf8EncodeChar, Char.toNat_val, toNat_ofNat (by omega), if_neg (by omega), if_neg (by omega), if_neg (by omega),
    first, second, third, fourth]

/-- Bytes that are read begin with those of a character, and the rest is read after it. -/
theorem exists_char_of_decodeFrom (reads : decodeFrom done pos none bytes = .ok text) (some : bytes ≠ []) :
    ∃ c rest further, bytes = String.utf8EncodeChar c ++ rest ∧
      decodeFrom (c :: done) further none rest = .ok text := by
  obtain ⟨byte, rest, rfl⟩ := List.exists_cons_of_ne_nil some
  have same : byte = UInt8.ofNat byte.toNat := by simp
  rw [decodeFrom] at reads
  rw [same]
  generalize byte.toNat = n at reads
  split at reads
  · rename_i small
    refine ⟨_, rest, _, ?_, reads⟩
    rw [String.utf8EncodeChar, Char.toNat_val, toNat_ofNat (by omega), if_pos (by omega)]
    rfl
  split at reads
  · cases reads
  rename_i begins
  rcases lead?_cases begins with ⟨least, most, rfl⟩ |
    ⟨low, high, least, most, rfl, lowest, highest, long, whole⟩ |
    ⟨low, high, least, most, rfl, lowest, highest, long, last⟩
  · obtain ⟨a, rest, rfl, low, high, reads⟩ := decodeFrom_pending_ok reads
    refine ⟨_, rest, _, ?_, reads⟩
    rw [utf8EncodeChar_two least most low high]
    rfl
  · obtain ⟨a, rest, rfl, least', most', reads⟩ := decodeFrom_pending_ok reads
    obtain ⟨b, rest, rfl, low', high', reads⟩ := decodeFrom_pending_ok reads
    refine ⟨_, rest, _, ?_, reads⟩
    rw [utf8EncodeChar_three least most (by omega) (by omega) (by omega) (by omega) low' high']
    rfl
  · obtain ⟨a, rest, rfl, least', most', reads⟩ := decodeFrom_pending_ok reads
    obtain ⟨b, rest, rfl, low', high', reads⟩ := decodeFrom_pending_ok reads
    obtain ⟨c, rest, rfl, low'', high'', reads⟩ := decodeFrom_pending_ok reads
    refine ⟨_, rest, _, ?_, reads⟩
    rw [utf8EncodeChar_four least most (by omega) (by omega) (by omega) (by omega) low' high' low'' high'']
    rfl

/-! ## Texts -/

theorem decodeFrom_text (done : List Char) (pos : Nat) (text : List Char) :
    decodeFrom done pos none (text.flatMap String.utf8EncodeChar) = .ok (done.reverse ++ text) := by
  induction text generalizing done pos with
  | nil => rw [List.flatMap_nil, decodeFrom, List.append_nil]
  | cons c text ih =>
    obtain ⟨further, step⟩ := decodeFrom_char done pos c (text.flatMap String.utf8EncodeChar)
    rw [List.flatMap_cons, step, ih, List.reverse_cons, List.append_assoc]
    rfl

/-- The induction is on the number of bytes, as a character takes several of them. -/
theorem eq_flatMap_of_decodeFrom (length : Nat) {bytes : List UInt8} (short : bytes.length ≤ length)
    (reads : decodeFrom done pos none bytes = .ok text) :
    ∃ tail, text = done.reverse ++ tail ∧ bytes = tail.flatMap String.utf8EncodeChar := by
  induction length generalizing done pos bytes with
  | zero =>
    obtain rfl := List.length_eq_zero_iff.1 (Nat.le_zero.1 short)
    cases reads
    exact ⟨[], by simp, rfl⟩
  | succ length ih =>
    by_cases empty : bytes = []
    · cases empty
      cases reads
      exact ⟨[], by simp, rfl⟩
    · obtain ⟨c, rest, further, rfl, later⟩ := exists_char_of_decodeFrom reads empty
      have some : 0 < (String.utf8EncodeChar c).length := by
        rw [String.length_utf8EncodeChar]
        exact c.utf8Size_pos
      rw [List.length_append] at short
      obtain ⟨tail, rfl, rfl⟩ := ih (by omega) later
      exact ⟨c :: tail, by simp, rfl⟩

theorem decode_encode (text : String) : decode (encode text) = .ok text.toList := by
  rw [decode, C.encode_eq_flatMap, decodeFrom_text]
  rfl

/-- A text is read from its bytes and from no others. -/
theorem decode_eq_ok_iff {bytes : List UInt8} {text : String} :
    decode bytes = .ok text.toList ↔ bytes = encode text := by
  constructor
  · intro reads
    rw [decode] at reads
    split at reads
    · rename_i found
      cases reads
      obtain ⟨tail, same, rfl⟩ := eq_flatMap_of_decodeFrom _ (Nat.le_refl _) found
      rw [C.encode_eq_flatMap, same]
      rfl
    · cases reads
  · rintro rfl
    exact decode_encode text

end Utf8

/-! ## Line ends -/

/-- A text, and the same text with every line end made a newline. A line ends in a carriage return and a
newline, or in one of the two. -/
inductive Unified : List Char → List Char → Prop
  | nil : Unified [] []
  | both {raw text : List Char} (rest : Unified raw text) : Unified ('\r' :: '\n' :: raw) ('\n' :: text)
  | carriageReturn {raw text : List Char} (alone : raw.head? ≠ some '\n') (rest : Unified raw text) :
      Unified ('\r' :: raw) ('\n' :: text)
  | other {c : Char} {raw text : List Char} (other : c ≠ '\r') (rest : Unified raw text) :
      Unified (c :: raw) (c :: text)

theorem unified_iff {raw text : List Char} : Unified raw text ↔ text = unifyLineEnds raw := by
  constructor
  · intro unified
    induction unified with
    | nil => rfl
    | both rest ih => rw [unifyLineEnds, ih]
    | carriageReturn alone rest ih =>
      rw [unifyLineEnds, ih]
      rintro raw rfl
      exact alone rfl
    | other other rest ih =>
      rw [unifyLineEnds, ih]
      · exact fun raw same _ => other same
      · exact fun same => other same
  · rintro rfl
    fun_induction unifyLineEnds raw with
    | case1 => exact .nil
    | case2 raw ih => exact .both ih
    | case3 raw lone ih =>
      refine .carriageReturn (fun newline => ?_) ih
      obtain ⟨rest, rfl⟩ := List.head?_eq_some_iff.1 newline
      exact lone rest rfl
    | case4 c raw _ lone ih => exact .other lone ih

/-- Text without carriage returns is kept as it is. -/
theorem unifyLineEnds_append {front : List Char} (plain : '\r' ∉ front) (rest : List Char) :
    unifyLineEnds (front ++ rest) = front ++ unifyLineEnds rest := by
  induction front with
  | nil => rfl
  | cons c front ih =>
    obtain ⟨other, later⟩ := not_or.1 (mt List.mem_cons.2 plain)
    rw [List.cons_append, unifyLineEnds, ih later, List.cons_append]
    · exact fun _ same _ => other same.symm
    · exact fun same => other same.symm

end LineBasic.Text

namespace LineBasic

/-- Bytes stand for a source: they are the bytes of a text that becomes the source when its line ends are
made newlines. -/
def StandsFor (bytes : List UInt8) (source : String) : Prop :=
  ∃ text : String, bytes = Text.Utf8.encode text ∧ Text.Unified text.toList source.toList

theorem decodeSource_encode (text : String) :
    decodeSource (Text.Utf8.encode text) = .ok (String.ofList (Text.unifyLineEnds text.toList)) := by
  rw [decodeSource, Text.Utf8.decode_encode]

/-- What is read from a file is the source for which its bytes stand. -/
theorem decodeSource_eq_ok_iff {bytes : List UInt8} {source : String} :
    decodeSource bytes = .ok source ↔ StandsFor bytes source := by
  constructor
  · intro reads
    rw [decodeSource] at reads
    split at reads
    · rename_i letters found
      cases reads
      rw [← String.toList_ofList (l := letters)] at found
      refine ⟨_, Text.Utf8.decode_eq_ok_iff.1 found, Text.unified_iff.2 ?_⟩
      simp
    · cases reads
  · rintro ⟨text, rfl, unified⟩
    rw [decodeSource_encode, ← Text.unified_iff.1 unified, String.ofList_toList]

/-- A file cannot be read exactly if its bytes are those of no text. -/
theorem decodeSource_eq_error_iff {bytes : List UInt8} :
    (∃ failure, decodeSource bytes = .error failure) ↔ ∀ text, bytes ≠ Text.Utf8.encode text := by
  constructor
  · rintro ⟨failure, fails⟩ text rfl
    rw [decodeSource_encode] at fails
    cases fails
  · intro foreign
    cases reads : decodeSource bytes with
    | error failure => exact ⟨failure, rfl⟩
    | ok source =>
      obtain ⟨text, same, -⟩ := decodeSource_eq_ok_iff.1 reads
      exact absurd same (foreign text)

end LineBasic
