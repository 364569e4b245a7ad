import Mathlib.Data.List.Basic
import Vouch.Bytes
import Vouch.Text.Utf8

namespace Vouch.Bytes

theorem toList_loop (bytes : ByteArray) (i : Nat) (before : List UInt8) :
    ByteArray.toList.loop bytes i before = before.reverse ++ bytes.data.toList.drop i := by
  fun_induction ByteArray.toList.loop bytes i before with
  | case1 i before inside ih =>
    have bound : i < bytes.data.toList.length := by simpa using inside
    have here : bytes.get! i = bytes.data.toList[i] := getElem!_pos bytes.data i bound
    rw [ih, here, List.reverse_cons, List.append_assoc, List.singleton_append,
      ← List.drop_eq_getElem_cons]
  | case2 i before outside =>
    have past : bytes.data.toList.length ≤ i := by simpa using outside
    rw [List.drop_eq_nil_of_le past, List.append_nil]

/-- A text has the bytes of its characters, one after the other. -/
theorem ofText_eq (text : String) : ofText text = text.toList.flatMap String.utf8EncodeChar := by
  have whole : ofText text = text.toByteArray.data.toList := toList_loop _ 0 []
  have encoded : text.toByteArray = text.toList.utf8Encode :=
    congrArg String.toByteArray (String.ofList_toList (s := text)).symm
  rw [whole, encoded]
  exact List.toList_data_toByteArray

end Vouch.Bytes

namespace Vouch.Utf8

variable {byte : UInt8} {rest : List UInt8} {lead : Lead} {count good value low high v b : Nat}

/-- The four forms of a character, told apart by the first byte. In the longer forms, the next byte
has tighter bounds after some first bytes. -/
inductive Begins (b : Nat) : Lead → Prop
  | one : b < 0x80 → Begins b ⟨0, b, 0, 0⟩
  | two : 0xc2 ≤ b → b < 0xe0 → Begins b ⟨1, b - 0xc0, 0x80, 0xbf⟩
  | three : 0xe0 ≤ b → b < 0xf0 →
      Begins b ⟨2, b - 0xe0, if b = 0xe0 then 0xa0 else 0x80, if b = 0xed then 0x9f else 0xbf⟩
  | four : 0xf0 ≤ b → b < 0xf5 →
      Begins b ⟨3, b - 0xf0, if b = 0xf0 then 0x90 else 0x80, if b = 0xf4 then 0x8f else 0xbf⟩

theorem Begins.lead? (begins : Begins b lead) : lead? b = some lead := by
  cases begins <;> unfold Utf8.lead? <;> grind

theorem begins_of_lead? (found : lead? b = some lead) : Begins b lead := by
  have inside : b < 0x80 ∨ 0xc2 ≤ b ∧ b < 0xf5 := by
    unfold lead? at found
    grind
  have form : ∃ other, Begins b other := by
    rcases Nat.lt_or_ge b 0x80 with small | large
    · exact ⟨_, .one small⟩
    rcases Nat.lt_or_ge b 0xe0 with small | large'
    · exact ⟨_, .two (by omega) small⟩
    rcases Nat.lt_or_ge b 0xf0 with small | large''
    · exact ⟨_, .three large' small⟩
    · exact ⟨_, .four large'' (by omega)⟩
  obtain ⟨other, begins⟩ := form
  obtain rfl : other = lead := Option.some.inj (begins.lead?.symm.trans found)
  exact begins

theorem tail_succ_eq_ok_iff :
    tail (count + 1) good value low high rest = .ok v ↔
      ∃ byte after, rest = byte :: after ∧ low ≤ byte.toNat ∧ byte.toNat ≤ high ∧
        tail count (good + 1) (value * 64 + (byte.toNat - 0x80)) 0x80 0xbf after = .ok v := by
  cases rest with
  | nil => simp [tail]
  | cons byte after =>
    by_cases inside : low ≤ byte.toNat ∧ byte.toNat ≤ high
    · simp [tail, inside]
    · simp only [tail, if_neg inside, reduceCtorEq, List.cons.injEq, false_iff]
      rintro ⟨_, _, ⟨rfl, rfl⟩, above, below, _⟩
      exact inside ⟨above, below⟩

theorem tail_zero_eq_ok_iff : tail 0 good value low high rest = .ok v ↔ value = v := by
  rw [tail, Except.ok.injEq]

theorem tail_encoded {bits : Nat} {after : List UInt8} (above : low ≤ bits % 64 + 0x80)
    (below : bits % 64 + 0x80 ≤ high) :
    tail (count + 1) good value low high (UInt8.ofNat (bits % 64 + 0x80) :: after) =
      tail count (good + 1) (value * 64 + bits % 64) 0x80 0xbf after := by
  have whole : (UInt8.ofNat (bits % 64 + 0x80)).toNat = bits % 64 + 0x80 := by
    rw [UInt8.toNat_ofNat']
    omega
  rw [tail, whole, if_pos ⟨above, below⟩, Nat.add_sub_cancel]

theorem encode_one {c : Char} (small : c.toNat < 0x80) :
    String.utf8EncodeChar c = [UInt8.ofNat c.toNat] :=
  if_pos (Nat.le_of_lt_succ small)

theorem encode_two {c : Char} (large : 0x80 ≤ c.toNat) (small : c.toNat < 0x800) :
    String.utf8EncodeChar c =
      [UInt8.ofNat (c.toNat / 64 % 32 + 0xc0), UInt8.ofNat (c.toNat % 64 + 0x80)] :=
  (if_neg (Nat.not_le_of_lt large)).trans (if_pos (Nat.le_of_lt_succ small))

theorem encode_three {c : Char} (large : 0x800 ≤ c.toNat) (small : c.toNat < 0x10000) :
    String.utf8EncodeChar c =
      [UInt8.ofNat (c.toNat / 4096 % 16 + 0xe0), UInt8.ofNat (c.toNat / 64 % 64 + 0x80),
        UInt8.ofNat (c.toNat % 64 + 0x80)] :=
  (if_neg (Nat.not_le_of_lt (Nat.lt_of_lt_of_le (by decide) large))).trans
    ((if_neg (Nat.not_le_of_lt large)).trans (if_pos (Nat.le_of_lt_succ small)))

theorem encode_four {c : Char} (large : 0x10000 ≤ c.toNat) :
    String.utf8EncodeChar c =
      [UInt8.ofNat (c.toNat / 262144 % 8 + 0xf0), UInt8.ofNat (c.toNat / 4096 % 64 + 0x80),
        UInt8.ofNat (c.toNat / 64 % 64 + 0x80), UInt8.ofNat (c.toNat % 64 + 0x80)] :=
  (if_neg (Nat.not_le_of_lt (Nat.lt_of_lt_of_le (by decide) large))).trans
    ((if_neg (Nat.not_le_of_lt (Nat.lt_of_lt_of_le (by decide) large))).trans
      (if_neg (Nat.not_le_of_lt large)))

/-- The bytes of a character begin with one that calls for the others. -/
theorem exists_lead (c : Char) (rest : List UInt8) :
    ∃ byte bytes lead, String.utf8EncodeChar c = byte :: bytes ∧ Begins byte.toNat lead ∧
      bytes.length = lead.count ∧
      tail lead.count 0 lead.bits lead.low lead.high (bytes ++ rest) = .ok c.toNat := by
  have valid : c.toNat < 0xd800 ∨ 0xdfff < c.toNat ∧ c.toNat < 0x110000 := c.valid
  have first : ∀ n < 256, (UInt8.ofNat n).toNat = n := fun n small => by
    rw [UInt8.toNat_ofNat', Nat.mod_eq_of_lt small]
  rcases Nat.lt_or_ge c.toNat 0x80 with one | large
  · have head := first c.toNat (by omega)
    refine ⟨_, _, _, encode_one one, .one (by omega), rfl, ?_⟩
    rw [tail, head]
  rcases Nat.lt_or_ge c.toNat 0x800 with two | large
  · have head := first (c.toNat / 64 % 32 + 0xc0) (by omega)
    refine ⟨_, _, _, encode_two large two, .two (by omega) (by omega), rfl, ?_⟩
    dsimp only [List.cons_append]
    rw [head, tail_encoded (by omega) (by omega), tail]
    congr 1
    omega
  rcases Nat.lt_or_ge c.toNat 0x10000 with three | large
  · have head := first (c.toNat / 4096 % 16 + 0xe0) (by omega)
    refine ⟨_, _, _, encode_three large three, .three (by omega) (by omega), rfl, ?_⟩
    dsimp only [List.cons_append]
    rw [head, tail_encoded (by split <;> omega) (by split <;> omega),
      tail_encoded (by omega) (by omega), tail]
    congr 1
    omega
  · have head := first (c.toNat / 262144 % 8 + 0xf0) (by omega)
    refine ⟨_, _, _, encode_four large, .four (by omega) (by omega), rfl, ?_⟩
    dsimp only [List.cons_append]
    rw [head, tail_encoded (by split <;> omega) (by split <;> omega),
      tail_encoded (by omega) (by omega), tail_encoded (by omega) (by omega), tail]
    congr 1
    omega

theorem eq_ofNat (byte : UInt8) {n : Nat} (value : byte.toNat = n) :
    byte = UInt8.ofNat n := by
  rw [← value, UInt8.ofNat_toNat]

/-- A first byte and the bytes that it calls for make a character. -/
theorem exists_char {bits : Nat} (begins : Begins byte.toNat ⟨count, bits, low, high⟩)
    (read : tail count 0 bits low high rest = .ok v) :
    ∃ c : Char, c.toNat = v ∧ byte :: rest = String.utf8EncodeChar c ++ rest.drop count := by
  have char : v < 0xd800 ∨ 0xdfff < v ∧ v < 0x110000 → ∃ c : Char, c.toNat = v := fun valid =>
    ⟨Char.ofNatAux v valid, rfl⟩
  cases begins with
  | one small =>
    have value := tail_zero_eq_ok_iff.mp read
    obtain ⟨c, same⟩ := char (by omega)
    refine ⟨c, same, ?_⟩
    rw [encode_one (by omega), ← eq_ofNat byte (by omega)]
    rfl
  | two above below =>
    obtain ⟨b, after, rfl, least, most, last⟩ := tail_succ_eq_ok_iff.mp read
    have value := tail_zero_eq_ok_iff.mp last
    obtain ⟨c, same⟩ := char (by omega)
    refine ⟨c, same, ?_⟩
    rw [encode_two (by omega) (by omega), ← eq_ofNat byte (by omega),
      ← eq_ofNat b (by omega)]
    rfl
  | three above below =>
    obtain ⟨b, after, rfl, least, most, next⟩ := tail_succ_eq_ok_iff.mp read
    obtain ⟨d, after, rfl, least', most', last⟩ := tail_succ_eq_ok_iff.mp next
    have value := tail_zero_eq_ok_iff.mp last
    have bounds : 0x80 ≤ b.toNat ∧ b.toNat ≤ 0xbf ∧ (byte.toNat = 0xe0 → 0xa0 ≤ b.toNat) ∧
        (byte.toNat = 0xed → b.toNat ≤ 0x9f) := by
      refine ⟨?_, ?_, ?_, ?_⟩ <;> split at least <;> split at most <;> omega
    obtain ⟨c, same⟩ := char (by omega)
    refine ⟨c, same, ?_⟩
    rw [encode_three (by omega) (by omega), ← eq_ofNat byte (by omega),
      ← eq_ofNat b (by omega), ← eq_ofNat d (by omega)]
    rfl
  | four above below =>
    obtain ⟨b, after, rfl, least, most, next⟩ := tail_succ_eq_ok_iff.mp read
    obtain ⟨d, after, rfl, least', most', next'⟩ := tail_succ_eq_ok_iff.mp next
    obtain ⟨e, after, rfl, least'', most'', last⟩ := tail_succ_eq_ok_iff.mp next'
    have value := tail_zero_eq_ok_iff.mp last
    have bounds : 0x80 ≤ b.toNat ∧ b.toNat ≤ 0xbf ∧ (byte.toNat = 0xf0 → 0x90 ≤ b.toNat) ∧
        (byte.toNat = 0xf4 → b.toNat ≤ 0x8f) := by
      refine ⟨?_, ?_, ?_, ?_⟩ <;> split at least <;> split at most <;> omega
    obtain ⟨c, same⟩ := char (by omega)
    refine ⟨c, same, ?_⟩
    rw [encode_four (by omega), ← eq_ofNat byte (by omega),
      ← eq_ofNat b (by omega), ← eq_ofNat d (by omega),
      ← eq_ofNat e (by omega)]
    rfl

/-- Bytes are decoded to the one text whose characters they are the bytes of. -/
theorem decodeFrom_eq_ok_iff {position : Nat} {before cs : List Char} {bytes : List UInt8} :
    decodeFrom position before bytes = .ok cs ↔
      ∃ more, cs = before.reverse ++ more ∧ bytes = more.flatMap String.utf8EncodeChar := by
  constructor
  · intro decoded
    fun_induction decodeFrom position before bytes with
    | case1 =>
      cases decoded
      exact ⟨[], (List.append_nil _).symm, rfl⟩
    | case2 => cases decoded
    | case3 => cases decoded
    | case4 position before byte rest lead found value read ih =>
      obtain ⟨more, rfl, after⟩ := ih decoded
      obtain ⟨c, rfl, whole⟩ := exists_char (begins_of_lead? found) read
      refine ⟨c :: more, ?_, ?_⟩
      · rw [Char.ofNat_toNat, List.reverse_cons, List.append_assoc]
        rfl
      · rw [whole, after, List.flatMap_cons]
  · rintro ⟨more, rfl, rfl⟩
    induction more generalizing position before with
    | nil => simp [decodeFrom]
    | cons c more ih =>
      obtain ⟨byte, bytes, lead, encoded, begins, length, read⟩ :=
        exists_lead c (more.flatMap String.utf8EncodeChar)
      rw [List.flatMap_cons, encoded, List.cons_append, decodeFrom, begins.lead?]
      simp only [read]
      rw [← length, List.drop_left, Char.ofNat_toNat, ih, List.reverse_cons, List.append_assoc]
      rfl

/-- Bytes are decoded to a text just if they are the bytes of it. -/
theorem decode_eq_ok_iff {bytes : List UInt8} {text : String} :
    decode bytes = .ok text.toList ↔ bytes = Bytes.ofText text := by
  rw [decode, decodeFrom_eq_ok_iff, Bytes.ofText_eq]
  simp

end Vouch.Utf8
