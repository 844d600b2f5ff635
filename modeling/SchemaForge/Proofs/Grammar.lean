import SchemaForge.Json.Basic
import Mathlib.Data.List.Induction
import Mathlib.Data.List.Nodup

/-!
The grammar of JSON, over the characters of a text: blanks around one value. Every derivation comes
with the tree that the text denotes. Numbers keep their spelling, strings are decoded, and an object
has its keys in the order in which they first occur, each with the value that it is given last.
-/
namespace SchemaForge

namespace Members

variable {α : Type}

/-- Every key once, where it first occurs, with the value of its last occurrence. -/
def settled (members : List (String × α)) : List (String × α) :=
  (keys members).eraseDups.filterMap fun key => (get? key members.reverse).map (key, ·)

theorem get?_isSome_iff {key : String} {members : List (String × α)} :
    (get? key members).isSome = true ↔ key ∈ keys members := by
  induction members with
  | nil => simp [get?, keys]
  | cons head rest ih =>
    obtain ⟨k, v⟩ := head
    unfold keys at ih
    by_cases same : k = key
    · simp [get?, keys, same]
    · simp [get?, keys, same, ih, Ne.symm same]

theorem eraseDups_snoc (names : List String) (name : String) :
    (names ++ [name]).eraseDups =
      if name ∈ names then names.eraseDups else names.eraseDups ++ [name] := by
  rw [List.eraseDups_append, List.removeAll]
  by_cases known : name ∈ names
  · simp [known]
  · simp [known, List.eraseDups_cons]

theorem nodup_eraseDups (names : List String) : names.eraseDups.Nodup := by
  induction names using List.reverseRecOn with
  | nil => simp
  | append_singleton names name ih =>
    rw [eraseDups_snoc]
    by_cases known : name ∈ names
    · rwa [if_pos known]
    · rw [if_neg known, List.nodup_append]
      refine ⟨ih, List.nodup_singleton name, ?_⟩
      rintro a member b single rfl
      rw [List.mem_singleton.mp single] at member
      exact known (List.mem_eraseDups.mp member)

/-- Setting a key in a list that has every key once changes its value there or adds it. -/
theorem set_filterMap (look : String → Option α) (key : String) (value : α) {names : List String}
    (once : names.Nodup) (known : ∀ name ∈ names, (look name).isSome = true) :
    set key value (names.filterMap fun name => (look name).map (name, ·)) =
      (if key ∈ names then names else names ++ [key]).filterMap fun name =>
        (if key = name then some value else look name).map (name, ·) := by
  induction names with
  | nil => simp [set]
  | cons name names ih =>
    obtain ⟨fresh, once⟩ := List.nodup_cons.mp once
    obtain ⟨v, found⟩ := Option.isSome_iff_exists.mp (known name List.mem_cons_self)
    have rest := ih once fun other member => known other (List.mem_cons_of_mem _ member)
    by_cases same : key = name
    · subst same
      have others : names.filterMap (fun name => (look name).map (name, ·)) =
          names.filterMap fun name =>
            (if key = name then some value else look name).map (name, ·) := by
        refine List.filterMap_congr fun other member => ?_
        rw [if_neg (by rintro rfl; exact fresh member)]
      simp [found, set, others]
    · have apart : (key ∈ name :: names) = (key ∈ names) := by simp [same]
      rw [List.filterMap_cons_some (by rw [found]; rfl), set, if_neg (Ne.symm same), rest]
      simp only [apart]
      by_cases later : key ∈ names
      · simp [later, same, found]
      · simp [later, same, found]

theorem settled_snoc (members : List (String × α)) (key : String) (value : α) :
    settled (members ++ [(key, value)]) = set key value (settled members) := by
  have look : ∀ name, get? name (members ++ [(key, value)]).reverse =
      if key = name then some value else get? name members.reverse := by
    intro name
    rw [List.reverse_append]
    rfl
  unfold settled
  rw [set_filterMap _ key value (nodup_eraseDups _) fun name member => ?_]
  · simp only [look, keys, List.map_append, List.map_cons, List.map_nil, eraseDups_snoc,
      List.mem_eraseDups]
  · rw [get?_isSome_iff, keys, List.map_reverse, List.mem_reverse]
    exact List.mem_eraseDups.mp member

theorem foldl_set (members : List (String × α)) :
    members.foldl (fun known member => set member.1 member.2 known) [] = settled members := by
  induction members using List.reverseRecOn with
  | nil => simp [settled, keys]
  | append_singleton members member ih =>
    rw [List.foldl_concat, ih]
    exact (settled_snoc members member.1 member.2).symm

end Members

namespace Json.Grammar

/-- Space, tab, line feed and carriage return. -/
def isSpace (c : Char) : Bool := c = ' ' || c = '\t' || c = '\n' || c = '\r'

def Blank (cs : List Char) : Prop := ∀ c ∈ cs, isSpace c = true

instance (cs : List Char) : Decidable (Blank cs) :=
  decidable_of_iff (cs.all isSpace = true) List.all_eq_true

/-- One or more digits. -/
def Digits (cs : List Char) : Prop := cs ≠ [] ∧ ∀ c ∈ cs, c.isDigit = true

instance (cs : List Char) : Decidable (Digits cs) :=
  decidable_of_iff ((!cs.isEmpty && cs.all Char.isDigit) = true) (by simp [Digits])

/-- No zero stands in front of other digits. -/
def Whole (cs : List Char) : Prop := Digits cs ∧ (cs.head? = some '0' → cs = ['0'])

instance (cs : List Char) : Decidable (Whole cs) :=
  inferInstanceAs (Decidable (Digits cs ∧ (cs.head? = some '0' → cs = ['0'])))

inductive Fraction : List Char → Prop
  | none : Fraction []
  | point {cs : List Char} (digits : Digits cs) : Fraction ('.' :: cs)

inductive Exponent : List Char → Prop
  | none : Exponent []
  | mark {m : Char} {sign cs : List Char} (letter : m = 'e' ∨ m = 'E')
      (signed : sign = [] ∨ sign = ['+'] ∨ sign = ['-']) (digits : Digits cs) :
      Exponent (m :: (sign ++ cs))

inductive Number : List Char → Prop
  | spelled {sign whole fraction exponent : List Char} (signed : sign = [] ∨ sign = ['-'])
      (digits : Whole whole) (part : Fraction fraction) (scale : Exponent exponent) :
      Number (sign ++ (whole ++ (fraction ++ exponent)))

/-- A hexadecimal digit, in either case. -/
def Hex (c : Char) (n : Nat) : Prop :=
  n < 16 ∧ (c = Nat.digitChar n ∨ c = (Nat.digitChar n).toUpper)

instance (c : Char) (n : Nat) : Decidable (Hex c n) :=
  inferInstanceAs (Decidable (n < 16 ∧ (c = Nat.digitChar n ∨ c = (Nat.digitChar n).toUpper)))

/-- Four hexadecimal digits. -/
inductive CodeUnit : List Char → Nat → Prop
  | digits {a b c d : Char} {i j k l : Nat} (first : Hex a i) (second : Hex b j) (third : Hex c k)
      (fourth : Hex d l) : CodeUnit [a, b, c, d] (i * 4096 + j * 256 + k * 16 + l)

/-- Letters that stand after a backslash, with what they name. -/
def shortEscapes : List (Char × Char) :=
  [('"', '"'), ('\\', '\\'), ('/', '/'), ('b', '\x08'), ('f', '\x0c'), ('n', '\n'), ('r', '\r'),
    ('t', '\t')]

/-- One character of a string. Surrogates come in pairs, the high one first. -/
inductive Character : List Char → Char → Prop
  | plain {c : Char} (visible : ' ' ≤ c) (quote : c ≠ '"') (slash : c ≠ '\\') : Character [c] c
  | short {letter c : Char} (named : (letter, c) ∈ shortEscapes) : Character ['\\', letter] c
  | unit {cs : List Char} {n : Nat} (written : CodeUnit cs n) (scalar : n < 0xd800 ∨ 0xe000 ≤ n) :
      Character ('\\' :: 'u' :: cs) (Char.ofNat n)
  | pair {cs ds : List Char} {high low : Nat} (first : CodeUnit cs high) (second : CodeUnit ds low)
      (isHigh : 0xd800 ≤ high ∧ high < 0xdc00) (isLow : 0xdc00 ≤ low ∧ low < 0xe000) :
      Character ('\\' :: 'u' :: (cs ++ '\\' :: 'u' :: ds))
        (Char.ofNat (0x10000 + (high - 0xd800) * 0x400 + (low - 0xdc00)))

/-- What stands between the quotes, and the text it spells. -/
inductive Characters : List Char → List Char → Prop
  | nil : Characters [] []
  | cons {cs ds text : List Char} {c : Char} (first : Character cs c) (rest : Characters ds text) :
      Characters (cs ++ ds) (c :: text)

inductive Quoted : List Char → String → Prop
  | quotes {cs text : List Char} (inside : Characters cs text) :
      Quoted ('"' :: (cs ++ ['"'])) (String.ofList text)

mutual

inductive Value : List Char → Json → Prop
  | null : Value "null".toList .null
  | true : Value "true".toList (.bool true)
  | false : Value "false".toList (.bool false)
  | number {cs : List Char} (spelled : Number cs) : Value cs (.num (String.ofList cs))
  | string {cs : List Char} {s : String} (quoted : Quoted cs s) : Value cs (.str s)
  | emptyArray {ws : List Char} (blank : Blank ws) : Value ('[' :: (ws ++ [']'])) (.arr [])
  | array {cs : List Char} {items : List Json} (elements : Elements cs items) :
      Value ('[' :: (cs ++ [']'])) (.arr items)
  | emptyObject {ws : List Char} (blank : Blank ws) :
      Value ('\x7b' :: (ws ++ ['\x7d'])) (.obj [])
  | object {cs : List Char} {members : List (String × Json)} (entries : Entries cs members) :
      Value ('\x7b' :: (cs ++ ['\x7d'])) (.obj (Members.settled members))

/-- Values with blanks around them, and one comma between two of them. -/
inductive Elements : List Char → List Json → Prop
  | last {before cs after : List Char} {v : Json} (front : Blank before) (value : Value cs v)
      (back : Blank after) : Elements (before ++ (cs ++ after)) [v]
  | more {before cs after ds : List Char} {v : Json} {items : List Json} (front : Blank before)
      (value : Value cs v) (back : Blank after) (rest : Elements ds items) :
      Elements (before ++ (cs ++ (after ++ ',' :: ds))) (v :: items)

/-- A key, a colon and a value, with one comma between two such members. -/
inductive Entries : List Char → List (String × Json) → Prop
  | last {before name gap between cs after : List Char} {key : String} {v : Json}
      (front : Blank before) (named : Quoted name key) (colon : Blank gap) (space : Blank between)
      (value : Value cs v) (back : Blank after) :
      Entries (before ++ (name ++ (gap ++ ':' :: (between ++ (cs ++ after))))) [(key, v)]
  | more {before name gap between cs after ds : List Char} {key : String} {v : Json}
      {members : List (String × Json)} (front : Blank before) (named : Quoted name key)
      (colon : Blank gap) (space : Blank between) (value : Value cs v) (back : Blank after)
      (rest : Entries ds members) :
      Entries (before ++ (name ++ (gap ++ ':' :: (between ++ (cs ++ (after ++ ',' :: ds))))))
        ((key, v) :: members)

end

/-- A whole text: one value with nothing but blanks around it. -/
inductive WellFormed : List Char → Json → Prop
  | text {before cs after : List Char} {v : Json} (front : Blank before) (value : Value cs v)
      (back : Blank after) : WellFormed (before ++ (cs ++ after)) v

theorem isDigit_mem {c : Char} (digit : c.isDigit = true) : c ∈ "0123456789".toList := by
  have all : ∀ n < 58, 48 ≤ n → Char.ofNat n ∈ "0123456789".toList := by decide
  have range : 48 ≤ c.toNat ∧ c.toNat < 58 := by
    simp only [Char.isDigit, Bool.and_eq_true, decide_eq_true_eq, UInt32.le_iff_toNat_le] at digit
    exact ⟨digit.1, Nat.lt_succ_of_le digit.2⟩
  rw [← Char.ofNat_toNat c]
  exact all _ range.2 range.1

/-- A number starts with a digit or a minus, and takes its characters from a short list. -/
theorem Number.chars {cs : List Char} (number : Number cs) :
    (∃ c rest, cs = c :: rest ∧ c ∈ "0123456789-".toList) ∧
      ∀ c ∈ cs, c ∈ "0123456789.eE+-".toList := by
  have start : "0123456789".toList ⊆ "0123456789-".toList := by decide
  have inside : "0123456789".toList ⊆ "0123456789.eE+-".toList := by decide
  obtain ⟨signed, ⟨⟨some_, digits⟩, -⟩, part, scale⟩ := number
  refine ⟨?_, fun c member => ?_⟩
  · rcases signed with rfl | rfl
    · obtain ⟨c, rest, rfl⟩ := List.exists_cons_of_ne_nil some_
      exact ⟨c, _, rfl, start (isDigit_mem (digits c List.mem_cons_self))⟩
    · exact ⟨'-', _, rfl, by decide⟩
  · simp only [List.mem_append] at member
    rcases member with sign | whole | fraction | exponent
    · rcases signed with rfl | rfl
      · cases sign
      · obtain rfl := List.mem_singleton.mp sign
        decide
    · exact inside (isDigit_mem (digits c whole))
    · cases part with
      | none => cases fraction
      | point digits =>
        rcases List.mem_cons.mp fraction with rfl | later
        · decide
        · exact inside (isDigit_mem (digits.2 c later))
    · cases scale with
      | none => cases exponent
      | mark letter signed digits =>
        simp only [List.mem_cons, List.mem_append] at exponent
        rcases exponent with rfl | sign | later
        · rcases letter with rfl | rfl <;> decide
        · rcases signed with rfl | rfl | rfl
          · cases sign
          all_goals
            obtain rfl := List.mem_singleton.mp sign
            decide
        · exact inside (isDigit_mem (digits.2 c later))

theorem Hex.mem {c : Char} {n : Nat} (hex : Hex c n) : c ∈ "0123456789abcdefABCDEF".toList := by
  obtain ⟨small, spelled⟩ := hex
  have all : ∀ n < 16, Nat.digitChar n ∈ "0123456789abcdefABCDEF".toList ∧
      (Nat.digitChar n).toUpper ∈ "0123456789abcdefABCDEF".toList := by decide
  rcases spelled with rfl | rfl
  · exact (all n small).1
  · exact (all n small).2

section ZeroFree

/- No part of a text holds the zero character. -/

theorem Blank.zero_free {cs : List Char} (blank : Blank cs) : '\x00' ∉ cs := by
  intro member
  exact absurd (blank _ member) (by decide)

theorem Number.zero_free {cs : List Char} (number : Number cs) : '\x00' ∉ cs := by
  intro member
  exact absurd (number.chars.2 _ member) (by decide)

theorem CodeUnit.zero_free {cs : List Char} {n : Nat} (unit : CodeUnit cs n) : '\x00' ∉ cs := by
  obtain ⟨first, second, third, fourth⟩ := unit
  have none : '\x00' ∉ "0123456789abcdefABCDEF".toList := by decide
  simp only [List.mem_cons, List.not_mem_nil, or_false, not_or]
  exact ⟨fun same => none (same ▸ first.mem), fun same => none (same ▸ second.mem),
    fun same => none (same ▸ third.mem), fun same => none (same ▸ fourth.mem)⟩

theorem Character.zero_free {cs : List Char} {c : Char} (character : Character cs c) :
    '\x00' ∉ cs := by
  cases character with
  | plain visible =>
    simp only [List.mem_singleton]
    rintro rfl
    exact absurd visible (by decide)
  | short named =>
    have all : ∀ escape ∈ shortEscapes, '\x00' ∉ ['\\', escape.1] := by decide
    exact all _ named
  | unit written => simp [written.zero_free]
  | pair first second => simp [first.zero_free, second.zero_free]

theorem Quoted.zero_free {cs : List Char} {s : String} (quoted : Quoted cs s) : '\x00' ∉ cs := by
  obtain ⟨inside⟩ := quoted
  induction inside with
  | nil => decide
  | cons first rest ih =>
    have here := first.zero_free
    simp_all

mutual

theorem Value.zero_free {cs : List Char} {v : Json} (value : Value cs v) : '\x00' ∉ cs := by
  cases value with
  | null => decide
  | true => decide
  | false => decide
  | number spelled => exact spelled.zero_free
  | string quoted => exact quoted.zero_free
  | emptyArray blank => simp [blank.zero_free]
  | array elements => simp [elements.zero_free]
  | emptyObject blank => simp [blank.zero_free]
  | object entries => simp [entries.zero_free]
termination_by 2 * cs.length
decreasing_by all_goals simp only [List.length_append, List.length_cons]; omega

theorem Elements.zero_free {cs : List Char} {items : List Json} (elements : Elements cs items) :
    '\x00' ∉ cs := by
  cases elements with
  | last front value back => simp [front.zero_free, value.zero_free, back.zero_free]
  | more front value back rest =>
    simp [front.zero_free, value.zero_free, back.zero_free, rest.zero_free]
termination_by 2 * cs.length + 1
decreasing_by all_goals simp only [List.length_append, List.length_cons]; omega

theorem Entries.zero_free {cs : List Char} {members : List (String × Json)}
    (entries : Entries cs members) : '\x00' ∉ cs := by
  cases entries with
  | last front named colon space value back =>
    simp [front.zero_free, named.zero_free, colon.zero_free, space.zero_free, value.zero_free,
      back.zero_free]
  | more front named colon space value back rest =>
    simp [front.zero_free, named.zero_free, colon.zero_free, space.zero_free, value.zero_free,
      back.zero_free, rest.zero_free]
termination_by 2 * cs.length + 1
decreasing_by all_goals simp only [List.length_append, List.length_cons]; omega

end

theorem WellFormed.zero_free {cs : List Char} {v : Json} (text : WellFormed cs v) :
    '\x00' ∉ cs := by
  obtain ⟨front, value, back⟩ := text
  simp [front.zero_free, value.zero_free, back.zero_free]

end ZeroFree

/-- A container is closed by the mark of its own kind. -/
theorem Value.closed {cs : List Char} {v : Json} (value : Value cs v) :
    (cs.head? = some '[' → cs.getLast? = some ']') ∧
      (cs.head? = some '\x7b' → cs.getLast? = some '\x7d') := by
  cases value with
  | null => decide
  | true => decide
  | false => decide
  | number spelled =>
    obtain ⟨c, rest, rfl, first⟩ := spelled.chars.1
    refine ⟨fun opens => ?_, fun opens => ?_⟩
    all_goals
      obtain rfl := Option.some.inj opens
      exact absurd first (by decide)
  | string quoted =>
    obtain ⟨inside⟩ := quoted
    simp
  | emptyArray | array | emptyObject | object => simp [List.getLast?_cons]

/-- A text that neither starts nor ends with a blank is a value. -/
theorem WellFormed.value {cs : List Char} {v : Json} (text : WellFormed cs v)
    (first : ∀ c, cs.head? = some c → isSpace c = false)
    (last : ∀ c, cs.getLast? = some c → isSpace c = false) : Value cs v := by
  obtain ⟨front, value, back⟩ := text
  rename_i before cs after
  obtain rfl : before = [] := by
    rcases before with _ | ⟨c, before⟩
    · rfl
    · have space := front c List.mem_cons_self
      rw [first c rfl] at space
      cases space
  obtain rfl : after = [] := by
    rcases after.eq_nil_or_concat with rfl | ⟨after, c, rfl⟩
    · rfl
    · have space := back c (by simp)
      rw [last c (by simp [List.getLast?_append])] at space
      cases space
  simpa using value

end Json.Grammar

end SchemaForge
