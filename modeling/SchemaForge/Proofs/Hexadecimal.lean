import SchemaForge.Proofs.Encoding
import SchemaForge.Proofs.Grammar
import SchemaForge.Validator.Basic

/-!
Bytes in hexadecimal. A text is read as bytes exactly if it is an even number of digits behind at
most one mark, in small letters, capitals or both. Written again in small letters, the bytes give the
digits that were read.
-/
namespace SchemaForge

open Json.Grammar (Hex)

namespace Text

theorem hexValue?_low {c : Char} {n : Nat} (value : hexValue? c = some n) : c.toNat < 0x80 := by
  unfold hexValue? at value
  simp only [Bool.and_eq_true, decide_eq_true_eq] at value
  split at value
  · next digit => exact Nat.lt_of_le_of_lt (m := '9'.toNat) digit.2 (by decide)
  · split at value
    · next small => exact Nat.lt_of_le_of_lt (m := 'f'.toNat) small.2 (by decide)
    · split at value
      · next capital => exact Nat.lt_of_le_of_lt (m := 'F'.toNat) capital.2 (by decide)
      · cases value

theorem hexValue?_eq_some_iff {c : Char} {n : Nat} : hexValue? c = some n ↔ Hex c n := by
  constructor
  · intro value
    have table : ∀ code < 0x80, (hexValue? (Char.ofNat code)).all
        (fun n => decide (Hex (Char.ofNat code) n)) = true := by decide
    have here := table c.toNat (hexValue?_low value)
    rw [Char.ofNat_toNat, value] at here
    exact of_decide_eq_true here
  · rintro ⟨small, spelled⟩
    have table : ∀ n < 16, hexValue? (Nat.digitChar n) = some n ∧
        hexValue? (Nat.digitChar n).toUpper = some n := by decide
    rcases spelled with rfl | rfl
    · exact (table n small).1
    · exact (table n small).2

theorem toList_toLower (s : String) : s.toLower.toList = s.toList.map Char.toLower :=
  String.toList_map

/-- Two digits in small letters for each byte, the high one first. -/
theorem toList_hexOfBytes_cons (b : UInt8) (bytes : Bytes) :
    (hexOfBytes (b :: bytes)).toList =
      hexDigit (b.toNat / 16 % 16) :: hexDigit (b.toNat % 16) :: (hexOfBytes bytes).toList := by
  simp [hexOfBytes, hexDigits]

theorem hexOfBytes_paired (bytes : Bytes) : (hexOfBytes bytes).length % 2 = 0 := by
  rw [← String.length_toList]
  induction bytes with
  | nil => rfl
  | cons b bytes ih =>
    rw [toList_hexOfBytes_cons, List.length_cons, List.length_cons]
    omega

theorem mem_hexOfBytes {bytes : Bytes} {c : Char} (member : c ∈ (hexOfBytes bytes).toList) :
    ∃ n < 16, c = hexDigit n := by
  induction bytes with
  | nil => cases member
  | cons b bytes ih =>
    rw [toList_hexOfBytes_cons, List.mem_cons, List.mem_cons] at member
    rcases member with high | low | later
    · exact ⟨_, Nat.mod_lt _ (by decide), high⟩
    · exact ⟨_, Nat.mod_lt _ (by decide), low⟩
    · exact ih later

/-- A digit has one spelling in small letters, and it is that of its value. -/
theorem hex_iff_toLower {c : Char} (digit : ∃ k, Hex c k) {n : Nat} (small : n < 16) :
    Hex c n ↔ c.toLower = hexDigit n := by
  have table : ∀ k < 16, ∀ n < 16, [Nat.digitChar k, (Nat.digitChar k).toUpper].all (fun c =>
      decide (Hex c n) == decide (c.toLower = hexDigit n)) = true := by decide
  obtain ⟨k, known, spelled⟩ := digit
  have here := List.all_eq_true.mp (table k known n small) c (by simpa using spelled)
  exact decide_eq_decide.mp (beq_iff_eq.mp here)

/-- The two digits of a byte determine it. -/
theorem halves_iff {high low : Nat} (first : high < 16) (second : low < 16) {b : UInt8} :
    b = UInt8.ofNat (high * 16 + low) ↔ b.toNat / 16 % 16 = high ∧ b.toNat % 16 = low := by
  have bound := b.toNat_lt
  rw [← UInt8.toNat_inj, UInt8.toNat_ofNat']
  omega

end Text

namespace Validate

theorem hexBytes?_pair_iff {a b : Char} {cs : List Char} {bytes : Bytes} :
    hexBytes? (a :: b :: cs) = some bytes ↔ ∃ high low more, Hex a high ∧ Hex b low ∧
      hexBytes? cs = some more ∧ bytes = UInt8.ofNat (high * 16 + low) :: more := by
  simp only [← Text.hexValue?_eq_some_iff]
  rw [hexBytes?]
  split
  · next high low more first second rest => simp [first, second, rest, eq_comm]
  · next missing =>
    refine iff_of_false (by simp) ?_
    rintro ⟨high, low, more, first, second, rest, -⟩
    exact missing high low more first second rest

/-- What is read as bytes are the digits of these bytes, up to the case of letters. -/
theorem hexBytes?_eq_some_iff {cs : List Char} {bytes : Bytes} :
    hexBytes? cs = some bytes ↔
      (∀ c ∈ cs, ∃ n, Hex c n) ∧ cs.map Char.toLower = (Text.hexOfBytes bytes).toList := by
  induction cs using List.twoStepInduction generalizing bytes with
  | nil =>
    cases bytes with
    | nil => simp [hexBytes?, Text.hexOfBytes]
    | cons b bytes => simp [hexBytes?, Text.toList_hexOfBytes_cons]
  | singleton a =>
    cases bytes with
    | nil => simp [hexBytes?, Text.hexOfBytes]
    | cons b bytes => simp [hexBytes?, Text.toList_hexOfBytes_cons]
  | cons_cons a b cs ih _ =>
    -- Two digits make a byte, and the halves of a byte are its two digits.
    rw [hexBytes?_pair_iff]
    simp only [List.forall_mem_cons, List.map_cons]
    constructor
    · rintro ⟨high, low, more, first, second, read, rfl⟩
      obtain ⟨spelled, same⟩ := ih.mp read
      obtain ⟨upper, lower⟩ := (Text.halves_iff first.1 second.1).mp rfl
      refine ⟨⟨⟨high, first⟩, ⟨low, second⟩, spelled⟩, ?_⟩
      rw [Text.toList_hexOfBytes_cons, upper, lower, same,
        (Text.hex_iff_toLower ⟨high, first⟩ first.1).mp first,
        (Text.hex_iff_toLower ⟨low, second⟩ second.1).mp second]
    · rintro ⟨⟨first, second, spelled⟩, same⟩
      cases bytes with
      | nil => simp [Text.hexOfBytes] at same
      | cons byte more =>
        simp only [Text.toList_hexOfBytes_cons, List.cons.injEq] at same
        obtain ⟨upper, lower, rest⟩ := same
        have high : byte.toNat / 16 % 16 < 16 := Nat.mod_lt _ (by decide)
        have low : byte.toNat % 16 < 16 := Nat.mod_lt _ (by decide)
        refine ⟨_, _, more, (Text.hex_iff_toLower first high).mpr upper,
          (Text.hex_iff_toLower second low).mpr lower, ih.mpr ⟨spelled, rest⟩, ?_⟩
        exact congrArg (· :: more) ((Text.halves_iff high low).mpr ⟨rfl, rfl⟩)

/-- The number of bytes of a text is checked first; digits that can be read pass this check. -/
theorem asBytes_eq_ok_iff {s : String} {bytes : Bytes} :
    asBytes s = .ok bytes ↔ hexBytes? (dropHexMark s.toList) = some bytes := by
  unfold asBytes
  cases read : hexBytes? (dropHexMark s.toList) with
  | none =>
    simp only [read]
    split <;> simp [refuse]
  | some found =>
    obtain ⟨spelled, same⟩ := hexBytes?_eq_some_iff.mp read
    have low : ∀ c ∈ dropHexMark s.toList, c.toNat < 0x80 := by
      intro c member
      obtain ⟨n, hex⟩ := spelled c member
      exact Text.hexValue?_low (Text.hexValue?_eq_some_iff.mpr hex)
    have paired : (Utf8.encodeChars (dropHexMark s.toList)).length % 2 = 0 := by
      rw [Utf8.encodeChars_low low, List.length_map, ← List.length_map (f := Char.toLower), same,
        String.length_toList]
      exact Text.hexOfBytes_paired found
    simp [read, paired]

/-- What may stand in front of hexadecimal digits. -/
inductive HexMark where
  | none
  | small
  | capital

def HexMark.text : HexMark → String
  | .none => ""
  | .small => "0x"
  | .capital => "0X"

/-- A text in hexadecimal: at most one mark, and an even number of digits after it. -/
structure Hexadecimal (s digits : String) : Prop where
  marked : ∃ mark : HexMark, s = mark.text ++ digits
  spelled : ∀ c ∈ digits.toList, ∃ n, Hex c n
  paired : digits.length % 2 = 0

theorem dropHexMark_marked (cs : List Char) :
    ∃ mark : HexMark, cs = mark.text.toList ++ dropHexMark cs := by
  unfold dropHexMark
  split
  · exact ⟨.small, rfl⟩
  · exact ⟨.capital, rfl⟩
  · exact ⟨.none, rfl⟩

/-- Digits alone are not taken for a mark, since no mark is all digits. -/
theorem dropHexMark_append (mark : HexMark) {digits : List Char}
    (spelled : ∀ c ∈ digits, ∃ n, Hex c n) :
    dropHexMark (mark.text.toList ++ digits) = digits := by
  have apart : ∀ {c : Char}, c ∈ digits → Text.hexValue? c ≠ none := by
    intro c member missing
    obtain ⟨n, hex⟩ := spelled c member
    rw [Text.hexValue?_eq_some_iff.mpr hex] at missing
    cases missing
  cases mark with
  | small => rfl
  | capital => rfl
  | none =>
    change dropHexMark digits = digits
    -- What looks like a mark would have its letter among the digits.
    unfold dropHexMark
    split
    · exact absurd (by decide) (apart (c := 'x') (by simp))
    · exact absurd (by decide) (apart (c := 'X') (by simp))
    · rfl

/-- Every even number of digits can be read. -/
theorem exists_hexBytes? {cs : List Char} (spelled : ∀ c ∈ cs, ∃ n, Hex c n)
    (paired : cs.length % 2 = 0) : ∃ bytes, hexBytes? cs = some bytes := by
  induction cs using List.twoStepInduction with
  | nil => exact ⟨[], rfl⟩
  | singleton a => simp at paired
  | cons_cons a b cs ih _ =>
    simp only [List.forall_mem_cons] at spelled
    obtain ⟨⟨high, first⟩, ⟨low, second⟩, rest⟩ := spelled
    obtain ⟨more, read⟩ := ih rest (by simpa [Nat.add_assoc] using paired)
    exact ⟨_, hexBytes?_pair_iff.mpr ⟨high, low, more, first, second, read, rfl⟩⟩

namespace Hexadecimal

variable {s digits : String}

theorem dropHexMark_eq (text : Hexadecimal s digits) : dropHexMark s.toList = digits.toList := by
  obtain ⟨mark, rfl⟩ := text.marked
  rw [String.toList_append, dropHexMark_append mark text.spelled]

theorem asBytes_iff (text : Hexadecimal s digits) {bytes : Bytes} :
    asBytes s = .ok bytes ↔ Text.hexOfBytes bytes = digits.toLower := by
  rw [asBytes_eq_ok_iff, hexBytes?_eq_some_iff, text.dropHexMark_eq, ← String.toList_inj,
    Text.toList_toLower, eq_comm (a := (Text.hexOfBytes bytes).toList)]
  exact and_iff_right text.spelled

theorem exists_asBytes (text : Hexadecimal s digits) : ∃ bytes, asBytes s = .ok bytes := by
  have paired : digits.toList.length % 2 = 0 := by
    rw [String.length_toList]
    exact text.paired
  obtain ⟨bytes, read⟩ := exists_hexBytes? text.spelled paired
  exact ⟨bytes, asBytes_eq_ok_iff.mpr (text.dropHexMark_eq ▸ read)⟩

theorem of_asBytes {bytes : Bytes} (read : asBytes s = .ok bytes) :
    ∃ digits, Hexadecimal s digits := by
  obtain ⟨spelled, same⟩ := hexBytes?_eq_some_iff.mp (asBytes_eq_ok_iff.mp read)
  obtain ⟨mark, marked⟩ := dropHexMark_marked s.toList
  refine ⟨String.ofList (dropHexMark s.toList), ⟨mark, ?_⟩, by simpa using spelled, ?_⟩
  · rw [← String.toList_inj]
    simpa using marked
  · have paired := Text.hexOfBytes_paired bytes
    rw [← String.length_toList, ← same, List.length_map] at paired
    simpa using paired

/-- Bytes can be written in letters of either case, or of both. -/
theorem of_bytes (mark : HexMark) (bytes : Bytes) (spell : Char → Char)
    (keeps : ∀ n < 16, Hex (spell (Text.hexDigit n)) n) :
    Hexadecimal (mark.text ++ (Text.hexOfBytes bytes).map spell)
      ((Text.hexOfBytes bytes).map spell) where
  marked := ⟨mark, rfl⟩
  spelled := by
    intro c member
    rw [String.toList_map, List.mem_map] at member
    obtain ⟨d, inside, rfl⟩ := member
    obtain ⟨n, small, rfl⟩ := Text.mem_hexOfBytes inside
    exact ⟨n, keeps n small⟩
  paired := by simpa using Text.hexOfBytes_paired bytes

end Hexadecimal

theorem asBytes_written (mark : HexMark) (bytes : Bytes) (spell : Char → Char)
    (keeps : ∀ n < 16, Hex (spell (Text.hexDigit n)) n) :
    asBytes (mark.text ++ (Text.hexOfBytes bytes).map spell) = .ok bytes := by
  have back : ∀ c ∈ (Text.hexOfBytes bytes).toList, (spell c).toLower = c := by
    intro c member
    obtain ⟨n, small, rfl⟩ := Text.mem_hexOfBytes member
    exact (Text.hex_iff_toLower ⟨n, keeps n small⟩ small).mp (keeps n small)
  rw [(Hexadecimal.of_bytes mark bytes spell keeps).asBytes_iff, ← String.toList_inj,
    Text.toList_toLower, String.toList_map, List.map_map]
  exact (List.map_id _).symm.trans (List.map_congr_left fun c member => (back c member).symm)

/-- Writing bytes in hexadecimal and reading them gives the bytes, in either case and behind any
    mark. A text can be read exactly if it is an even number of digits behind at most one mark, and
    written in small letters the result is these digits in small letters. -/
theorem hexadecimal_read_exactly :
    (∀ (bytes : Bytes) (mark : HexMark),
      asBytes (mark.text ++ Text.hexOfBytes bytes) = .ok bytes ∧
      asBytes (mark.text ++ (Text.hexOfBytes bytes).toUpper) = .ok bytes) ∧
    (∀ s, (∃ bytes, asBytes s = .ok bytes) ↔ ∃ digits, Hexadecimal s digits) ∧
    (∀ s bytes, asBytes s = .ok bytes ↔
      ∃ digits, Hexadecimal s digits ∧ Text.hexOfBytes bytes = digits.toLower) := by
  refine ⟨fun bytes mark => ⟨?_, ?_⟩, fun s => ⟨?_, ?_⟩, fun s bytes => ⟨?_, ?_⟩⟩
  · simpa using asBytes_written mark bytes id (by decide)
  · exact asBytes_written mark bytes Char.toUpper (by decide)
  · rintro ⟨bytes, read⟩
    exact Hexadecimal.of_asBytes read
  · rintro ⟨digits, text⟩
    exact text.exists_asBytes
  · intro read
    obtain ⟨digits, text⟩ := Hexadecimal.of_asBytes read
    exact ⟨digits, text, text.asBytes_iff.mp read⟩
  · rintro ⟨digits, text, same⟩
    exact text.asBytes_iff.mpr same

-- A mark alone stands for no bytes at all, and a second mark is not skipped.
example : asBytes "0x" = .ok [] := by rfl
example : asBytes "0x0X" = refuse (.invalidHex "0x0X") := by rfl

end Validate

end SchemaForge
