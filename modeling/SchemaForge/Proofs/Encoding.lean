import SchemaForge.Text.Utf8

/-!
Text and its bytes. A character below 128 is one byte of that value, and no other character has such
a byte among its own. Reading the bytes of a text gives the text back.
-/
namespace SchemaForge

namespace Utf8

theorem encodeChars_eq (cs : List Char) : encodeChars cs = cs.flatMap String.utf8EncodeChar := by
  unfold encodeChars encode
  rw [String.toUTF8_eq_toByteArray, String.toByteArray_ofList]
  simp [List.utf8Encode]

@[simp] theorem encodeChars_nil : encodeChars [] = [] := by
  simp [encodeChars_eq]

theorem encodeChars_append (cs ds : List Char) :
    encodeChars (cs ++ ds) = encodeChars cs ++ encodeChars ds := by
  simp [encodeChars_eq]

theorem encodeChars_cons (c : Char) (cs : List Char) :
    encodeChars (c :: cs) = encodeChars [c] ++ encodeChars cs :=
  encodeChars_append [c] cs

/-- One to four bytes, by the size of the code point. -/
theorem encodeChars_cases (c : Char) :
    (c.toNat < 0x80 ∧ encodeChars [c] = [UInt8.ofNat c.toNat]) ∨
    (0x80 ≤ c.toNat ∧ c.toNat < 0x800 ∧
      encodeChars [c] = [UInt8.ofNat (c.toNat / 64 + 0xc0), UInt8.ofNat (c.toNat % 64 + 0x80)]) ∨
    (0x800 ≤ c.toNat ∧ c.toNat < 0x10000 ∧ (c.toNat < 0xd800 ∨ 0xe000 ≤ c.toNat) ∧
      encodeChars [c] = [UInt8.ofNat (c.toNat / 4096 + 0xe0),
        UInt8.ofNat (c.toNat / 64 % 64 + 0x80), UInt8.ofNat (c.toNat % 64 + 0x80)]) ∨
    (0x10000 ≤ c.toNat ∧ c.toNat < 0x110000 ∧
      encodeChars [c] = [UInt8.ofNat (c.toNat / 262144 + 0xf0),
        UInt8.ofNat (c.toNat / 4096 % 64 + 0x80), UInt8.ofNat (c.toNat / 64 % 64 + 0x80),
        UInt8.ofNat (c.toNat % 64 + 0x80)]) := by
  have range : c.toNat < 0xd800 ∨ 0xdfff < c.toNat ∧ c.toNat < 0x110000 := c.valid
  have bytes : encodeChars [c] = String.utf8EncodeChar c := by simp [encodeChars_eq]
  have same : c.val.toNat = c.toNat := rfl
  rw [bytes, String.utf8EncodeChar]
  simp only [same]
  by_cases one : c.toNat ≤ 0x7f
  · exact .inl ⟨by omega, if_pos one⟩
  rw [if_neg one]
  by_cases two : c.toNat ≤ 0x7ff
  · refine .inr (.inl ⟨by omega, by omega, ?_⟩)
    rw [if_pos two, Nat.mod_eq_of_lt (show c.toNat / 64 < 32 by omega)]
  rw [if_neg two]
  by_cases three : c.toNat ≤ 0xffff
  · refine .inr (.inr (.inl ⟨by omega, by omega, by omega, ?_⟩))
    rw [if_pos three, Nat.mod_eq_of_lt (show c.toNat / 4096 < 16 by omega)]
  · refine .inr (.inr (.inr ⟨by omega, by omega, ?_⟩))
    rw [if_neg three, Nat.mod_eq_of_lt (show c.toNat / 262144 < 8 by omega)]

theorem encodeChars_ascii {c : Char} (low : c.toNat < 0x80) :
    encodeChars [c] = [UInt8.ofNat c.toNat] := by
  rcases encodeChars_cases c with ⟨_, bytes⟩ | ⟨high, _⟩ | ⟨high, _⟩ | ⟨high, _⟩
  · exact bytes
  all_goals omega

theorem encodeChars_cons_ascii {c : Char} (low : c.toNat < 0x80) (cs : List Char) :
    encodeChars (c :: cs) = UInt8.ofNat c.toNat :: encodeChars cs := by
  rw [encodeChars_cons, encodeChars_ascii low]
  rfl

theorem encodeChars_low {cs : List Char} (low : ∀ c ∈ cs, c.toNat < 0x80) :
    encodeChars cs = cs.map fun c => UInt8.ofNat c.toNat := by
  induction cs with
  | nil => simp
  | cons c cs ih =>
    rw [encodeChars_cons_ascii (low c List.mem_cons_self), List.map_cons,
      ih fun d member => low d (List.mem_cons_of_mem _ member)]

theorem toNat_byte {n : Nat} (small : n < 256) : (UInt8.ofNat n).toNat = n := by
  simpa using Nat.mod_eq_of_lt small

/-- A byte below 128 is a character of its own. -/
theorem mem_encodeChars_ascii {cs : List Char} {b : UInt8} (member : b ∈ encodeChars cs)
    (low : b.toNat < 0x80) : ∃ c ∈ cs, c.toNat = b.toNat := by
  induction cs with
  | nil => simp at member
  | cons c cs ih =>
    rw [encodeChars_cons, List.mem_append] at member
    rcases member with here | later
    · refine ⟨c, List.mem_cons_self, ?_⟩
      rcases encodeChars_cases c with ⟨_, bytes⟩ | ⟨_, _, bytes⟩ | ⟨_, _, _, bytes⟩ | ⟨_, _, bytes⟩
      all_goals
        rw [bytes] at here
        simp only [List.mem_cons, List.not_mem_nil, or_false] at here
      · rw [here, toNat_byte (by omega)]
      -- the bytes of a longer form are all 128 or more
      · rcases here with rfl | rfl <;> rw [toNat_byte (by omega)] at low <;> omega
      · rcases here with rfl | rfl | rfl <;> rw [toNat_byte (by omega)] at low <;> omega
      · rcases here with rfl | rfl | rfl | rfl <;> rw [toNat_byte (by omega)] at low <;> omega
    · obtain ⟨d, inside, same⟩ := ih later
      exact ⟨d, List.mem_cons_of_mem _ inside, same⟩

theorem isTrail_byte {n : Nat} (small : n < 64) : isTrail (UInt8.ofNat (n + 0x80)) = true := by
  have value := toNat_byte (show n + 0x80 < 256 by omega)
  simp only [isTrail, Bool.and_eq_true, decide_eq_true_eq, UInt8.le_iff_toNat_le, value]
  exact ⟨Nat.le_add_left _ _, by change n + 0x80 ≤ 0xbf; omega⟩

theorem pair?_bytes {m n : Nat} (low : 2 ≤ m) (high : m < 32) (second : n < 64) :
    pair? (UInt8.ofNat (m + 0xc0)) (UInt8.ofNat (n + 0x80)) = some (Char.ofNat (m * 0x40 + n)) := by
  have a := toNat_byte (show m + 0xc0 < 256 by omega)
  have b := toNat_byte (show n + 0x80 < 256 by omega)
  rw [pair?, if_pos, a, b, Nat.add_sub_cancel, Nat.add_sub_cancel]
  simp only [isTrail_byte second, Bool.and_true, Bool.and_eq_true, decide_eq_true_eq,
    UInt8.le_iff_toNat_le, a]
  change 0xc2 ≤ m + 0xc0 ∧ m + 0xc0 ≤ 0xdf
  omega

theorem pair?_high {a : UInt8} (high : 0xe0 ≤ a.toNat) (b : UInt8) : pair? a b = none := by
  have outside : ¬ a ≤ 0xdf := by
    rw [UInt8.le_iff_toNat_le]
    change ¬ a.toNat ≤ 0xdf
    omega
  simp [pair?, outside]

theorem triple?_bytes {m n k : Nat} (high : m < 16) (second : n < 64) (third : k < 64)
    (long : m = 0 → 32 ≤ n) (surrogate : m = 13 → n < 32) :
    triple? (UInt8.ofNat (m + 0xe0)) (UInt8.ofNat (n + 0x80)) (UInt8.ofNat (k + 0x80)) =
      some (Char.ofNat (m * 0x1000 + n * 0x40 + k)) := by
  have a := toNat_byte (show m + 0xe0 < 256 by omega)
  have b := toNat_byte (show n + 0x80 < 256 by omega)
  have c := toNat_byte (show k + 0x80 < 256 by omega)
  rw [triple?, if_pos, a, b, c, Nat.add_sub_cancel, Nat.add_sub_cancel, Nat.add_sub_cancel]
  simp only [isTrail_byte second, isTrail_byte third, Bool.and_true, Bool.and_eq_true,
    Bool.or_eq_true, decide_eq_true_eq, bne_iff_ne, ne_eq, ← UInt8.toNat_inj,
    UInt8.le_iff_toNat_le, a, b]
  change ((0xe0 ≤ m + 0xe0 ∧ m + 0xe0 ≤ 0xef) ∧ (¬ m + 0xe0 = 0xe0 ∨ 0xa0 ≤ n + 0x80)) ∧
    (¬ m + 0xe0 = 0xed ∨ n + 0x80 ≤ 0x9f)
  omega

theorem triple?_high {a : UInt8} (high : 0xf0 ≤ a.toNat) (b c : UInt8) : triple? a b c = none := by
  have outside : ¬ a ≤ 0xef := by
    rw [UInt8.le_iff_toNat_le]
    change ¬ a.toNat ≤ 0xef
    omega
  simp [triple?, outside]

theorem quad?_bytes {m n k j : Nat} (high : m < 5) (second : n < 64) (third : k < 64)
    (fourth : j < 64) (long : m = 0 → 16 ≤ n) (range : m = 4 → n < 16) :
    quad? (UInt8.ofNat (m + 0xf0)) (UInt8.ofNat (n + 0x80)) (UInt8.ofNat (k + 0x80))
      (UInt8.ofNat (j + 0x80)) = some (Char.ofNat (m * 0x40000 + n * 0x1000 + k * 0x40 + j)) := by
  have a := toNat_byte (show m + 0xf0 < 256 by omega)
  have b := toNat_byte (show n + 0x80 < 256 by omega)
  have c := toNat_byte (show k + 0x80 < 256 by omega)
  have d := toNat_byte (show j + 0x80 < 256 by omega)
  rw [quad?, if_pos, a, b, c, d, Nat.add_sub_cancel, Nat.add_sub_cancel, Nat.add_sub_cancel,
    Nat.add_sub_cancel]
  simp only [isTrail_byte second, isTrail_byte third, isTrail_byte fourth, Bool.and_true,
    Bool.and_eq_true, Bool.or_eq_true, decide_eq_true_eq, bne_iff_ne, ne_eq, ← UInt8.toNat_inj,
    UInt8.le_iff_toNat_le, a, b]
  change ((0xf0 ≤ m + 0xf0 ∧ m + 0xf0 ≤ 0xf4) ∧ (¬ m + 0xf0 = 0xf0 ∨ 0x90 ≤ n + 0x80)) ∧
    (¬ m + 0xf0 = 0xf4 ∨ n + 0x80 ≤ 0x8f)
  omega

/-- The bytes of a character are read as that character, whatever comes after them. -/
theorem lead_encodeChars (c : Char) (rest : Bytes) :
    ∃ a trail, encodeChars [c] = a :: trail ∧ lead a (trail ++ rest) = (c, trail.length) := by
  rcases encodeChars_cases c with ⟨_, bytes⟩ | ⟨_, _, bytes⟩ | ⟨_, _, _, bytes⟩ | ⟨_, _, bytes⟩
  all_goals
    refine ⟨_, _, bytes, ?_⟩
    rw [lead.eq_def]
  · have value := toNat_byte (show c.toNat < 256 by omega)
    rw [if_pos (by rw [UInt8.lt_iff_toNat_lt, value]; assumption), value, Char.ofNat_toNat]
    rfl
  · have value := toNat_byte (show c.toNat / 64 + 0xc0 < 256 by omega)
    have whole : c.toNat / 64 * 0x40 + c.toNat % 64 = c.toNat := by omega
    rw [if_neg (by rw [UInt8.lt_iff_toNat_lt, value]; change ¬ _ < 0x80; omega)]
    simp only [List.cons_append, pair?_bytes (show 2 ≤ c.toNat / 64 by omega)
      (by omega) (Nat.mod_lt c.toNat (by decide)), whole, Char.ofNat_toNat]
    rfl
  · have value := toNat_byte (show c.toNat / 4096 + 0xe0 < 256 by omega)
    have whole : c.toNat / 4096 * 0x1000 + c.toNat / 64 % 64 * 0x40 + c.toNat % 64 = c.toNat := by
      omega
    rw [if_neg (by rw [UInt8.lt_iff_toNat_lt, value]; change ¬ _ < 0x80; omega)]
    simp only [List.cons_append,
      pair?_high (show 0xe0 ≤ (UInt8.ofNat _).toNat by rw [value]; omega),
      triple?_bytes (show c.toNat / 4096 < 16 by omega) (Nat.mod_lt (c.toNat / 64) (by decide))
        (Nat.mod_lt c.toNat (by decide)) (by omega) (by omega), whole, Char.ofNat_toNat]
    rfl
  · have value := toNat_byte (show c.toNat / 262144 + 0xf0 < 256 by omega)
    have whole : c.toNat / 262144 * 0x40000 + c.toNat / 4096 % 64 * 0x1000 +
        c.toNat / 64 % 64 * 0x40 + c.toNat % 64 = c.toNat := by omega
    rw [if_neg (by rw [UInt8.lt_iff_toNat_lt, value]; change ¬ _ < 0x80; omega)]
    simp only [List.cons_append,
      pair?_high (show 0xe0 ≤ (UInt8.ofNat _).toNat by rw [value]; omega),
      triple?_high (show 0xf0 ≤ (UInt8.ofNat _).toNat by rw [value]; omega),
      quad?_bytes (show c.toNat / 262144 < 5 by omega) (Nat.mod_lt (c.toNat / 4096) (by decide))
        (Nat.mod_lt (c.toNat / 64) (by decide)) (Nat.mod_lt c.toNat (by decide)) (by omega)
        (by omega), whole, Char.ofNat_toNat]
    rfl

theorem decodeOnto_skip (acc : List Char) (skipped rest : Bytes) :
    decodeOnto acc skipped.length (skipped ++ rest) = decodeOnto acc 0 rest := by
  induction skipped with
  | nil => rfl
  | cons b skipped ih => exact ih

theorem decodeOnto_encodeChars (acc cs : List Char) :
    decodeOnto acc 0 (encodeChars cs) = acc.reverse ++ cs := by
  induction cs generalizing acc with
  | nil => simp [decodeOnto]
  | cons c cs ih =>
    obtain ⟨a, trail, bytes, read⟩ := lead_encodeChars c (encodeChars cs)
    rw [encodeChars_cons, bytes, List.cons_append, decodeOnto]
    simp only [read]
    rw [decodeOnto_skip, ih]
    simp

theorem decode_encodeChars (cs : List Char) : decode (encodeChars cs) = String.ofList cs := by
  rw [decode, decodeOnto_encodeChars]
  simp

theorem encodeChars_injective {cs ds : List Char} (same : encodeChars cs = encodeChars ds) :
    cs = ds := by
  have texts := congrArg decode same
  rw [decode_encodeChars, decode_encodeChars] at texts
  exact String.ofList_injective texts

end Utf8

end SchemaForge
