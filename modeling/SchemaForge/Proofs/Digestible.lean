import SchemaForge.Proofs.KeyOrder
import SchemaForge.Proofs.Literals

/-!
Which compiled sections have a digest. A digest is refused over a single literal, wherever it
stands: it has to be a JSON number below the limit of doubles, although no keyword that is compiled
asks for that. In a document in JSON nothing else is refused.
-/
namespace SchemaForge

namespace Json

namespace Lexer

theorem inNumber_byte (b : UInt8) :
    inNumber b = "0123456789.eE+-".toList.contains (Char.ofNat b.toNat) := by
  have all : ∀ n < 256, inNumber (UInt8.ofNat n) =
      "0123456789.eE+-".toList.contains (Char.ofNat n) := by decide +kernel
  simpa using all b.toNat b.toNat_lt

theorem startsNumber_text {b : UInt8} (starts : startsNumber b = true) (rest : Bytes) :
    Literal.StartsNumber (Utf8.decode (b :: rest.takeWhile inNumber)) := by
  have run : ∀ x ∈ b :: rest.takeWhile inNumber, inNumber x = true := by
    have more : ∀ n < 256, startsNumber (UInt8.ofNat n) = true →
        inNumber (UInt8.ofNat n) = true := by decide +kernel
    refine List.forall_mem_cons.mpr ⟨?_, fun x member => List.mem_takeWhile_imp member⟩
    simpa using more b.toNat b.toNat_lt (by simpa using starts)
  obtain ⟨cs, same, chars⟩ :=
    @Literal.exists_bytes _ ("0123456789.eE+-".toList.contains ·) inNumber_byte _ run
  have low : ∀ c ∈ cs, c.toNat < 0x80 := by
    have all : "0123456789.eE+-".toList.all (fun c => c.toNat < 0x80) = true := by decide
    intro c member
    simpa using List.all_eq_true.mp all c (by simpa using chars c member)
  rw [same, Literal.bytes, ← Utf8.encodeChars_low low, Utf8.decode_encodeChars]
  cases cs with
  | nil => cases same
  | cons c cs =>
    have kinds : "0123456789.eE+-".toList.all (fun c =>
        !startsNumber (UInt8.ofNat c.toNat) || c ∈ "0123456789+-.".toList) = true := by decide
    have first := List.all_eq_true.mp kinds c (by simpa using chars c List.mem_cons_self)
    have byte : b = UInt8.ofNat c.toNat := (List.cons.inj same).1
    rw [← byte, starts] at first
    exact ⟨c, by simp, by simpa using first⟩

theorem word_not_number {separated : Bool} {w : Word} {text rest : Bytes} {item : Lexeme}
    (found : word separated w text = .lexeme item rest) {literal : String} :
    item.token ≠ .number literal := by
  unfold word at found
  split at found
  · obtain ⟨rfl, -⟩ := Step.lexeme.inj found
    cases w <;> nofun
  · cases found

theorem number_lexeme {separated : Bool} {text rest : Bytes} {item : Lexeme}
    (found : next separated text = .lexeme item rest) {literal : String}
    (number : item.token = .number literal) : Literal.StartsNumber literal := by
  fun_induction next separated text with
  | case1 => cases found
  | case2 separated b text blank ih => exact ih found
  | case3 separated b text blank separator ih => exact ih found
  | case8 separated b rest _ _ _ _ _ _ starts =>
    obtain ⟨rfl, -⟩ := Step.lexeme.inj found
    obtain rfl := Token.number.inj number
    exact startsNumber_text starts rest
  | case10 => cases found
  | case11 => exact absurd number (word_not_number found)
  | case12 => exact absurd number (word_not_number found)
  | case13 => exact absurd number (word_not_number found)
  | case14 => cases found
  | _ =>
    obtain ⟨rfl, -⟩ := Step.lexeme.inj found
    cases number

theorem collect_numbers {fuel : Nat} {acc : List Lexeme} {text : Bytes} {literal : String}
    (known : ∀ item ∈ acc, item.token = .number literal → Literal.StartsNumber literal) :
    ∀ item ∈ (collect fuel acc text).items, item.token = .number literal →
      Literal.StartsNumber literal := by
  induction fuel generalizing acc text with
  | zero => simpa [collect] using known
  | succ fuel ih =>
    rw [collect]
    split
    · next found =>
      exact ih (List.forall_mem_cons.mpr ⟨fun number => number_lexeme found number, known⟩)
    · simpa using known

end Lexer

theorem mem_of_mem_settled {α : Type} {members : List (String × α)} {m : String × α}
    (member : m ∈ Members.settled members) : m ∈ members := by
  obtain ⟨key, -, found⟩ := List.mem_filterMap.mp member
  obtain ⟨v, got, rfl⟩ := Option.map_eq_some_iff.mp found
  exact List.mem_reverse.mp (Members.mem_of_get got)

-- A list of one value has no lexemes besides the value's, so a list counts for one more.
mutual

/-- The numbers of a value are among its lexemes. -/
theorem Loose.numbers {used : List Lexeme} {v : Json} (loose : Loose used v) :
    ∀ literal ∈ v.literals, ∃ item ∈ used, item.token = .number literal := by
  cases loose with
  | null | bool | string => exact nofun
  | number separated text =>
    intro literal member
    obtain rfl := List.mem_singleton.mp member
    exact ⟨_, List.mem_singleton_self _, rfl⟩
  | array elements =>
    intro literal member
    obtain ⟨item, there, number⟩ := elements.numbers literal member
    exact ⟨item, by simp [there], number⟩
  | object entries =>
    intro literal member
    rw [literals, memberLiterals_eq, List.mem_flatMap] at member
    obtain ⟨m, settled, here⟩ := member
    obtain ⟨item, there, number⟩ := entries.numbers m (mem_of_mem_settled settled) literal here
    exact ⟨item, by simp [there], number⟩
termination_by 2 * used.length
decreasing_by all_goals simp only [List.length_append, List.length_cons]; omega

theorem LooseItems.numbers {used : List Lexeme} {items : List Json}
    (loose : LooseItems used items) :
    ∀ literal ∈ itemLiterals items, ∃ item ∈ used, item.token = .number literal := by
  cases loose with
  | nil => exact nofun
  | cons value rest =>
    have taken := List.length_pos_of_ne_nil value.ne_nil
    intro literal member
    rcases List.mem_append.mp member with here | later
    · obtain ⟨item, there, number⟩ := value.numbers literal here
      exact ⟨item, List.mem_append_left _ there, number⟩
    · obtain ⟨item, there, number⟩ := rest.numbers literal later
      exact ⟨item, List.mem_append_right _ there, number⟩
termination_by 2 * used.length + 1
decreasing_by all_goals simp only [List.length_append] at *; omega

theorem LooseMembers.numbers {used : List Lexeme} {members : List (String × Json)}
    (loose : LooseMembers used members) :
    ∀ m ∈ members, ∀ literal ∈ m.2.literals, ∃ item ∈ used, item.token = .number literal := by
  cases loose with
  | nil => exact nofun
  | cons value rest =>
    intro m member literal here
    rcases List.mem_cons.mp member with rfl | later
    · obtain ⟨item, there, number⟩ := value.numbers literal here
      exact ⟨item, by simp [there], number⟩
    · obtain ⟨item, there, number⟩ := rest.numbers m later literal here
      exact ⟨item, by simp [there], number⟩
termination_by 2 * used.length + 1
decreasing_by all_goals simp only [List.length_append, List.length_cons]; omega

end

/-- In a text that is read as JSON every number starts like one. -/
theorem load_numbers {text : Bytes} {v : Json} (loaded : load text = .ok v) :
    ∀ literal ∈ v.literals, Literal.StartsNumber literal := by
  intro literal member
  obtain ⟨items, separated, source, loose⟩ := load_ok_iff.mp loaded
  obtain ⟨item, there, number⟩ := loose.numbers literal member
  have listed : item ∈ (lexemes text).items := by
    rw [source]
    exact there
  exact @Lexer.collect_numbers _ [] _ literal (by simp) item listed number

end Json

namespace Document

theorem child_literals {segment : String} {v w : Json} (found : child? segment v = some w) :
    w.literals ⊆ v.literals := by
  intro literal member
  cases v with
  | obj members =>
    rw [Json.literals, Json.memberLiterals_eq]
    exact List.mem_flatMap.mpr ⟨(segment, w), Members.mem_of_get found, member⟩
  | arr items =>
    obtain ⟨i, -, inside⟩ := Option.bind_eq_some_iff.mp found
    rw [Json.literals, Json.itemLiterals_eq]
    split at inside
    · cases inside
    · exact List.mem_flatMap.mpr ⟨w, List.mem_of_getElem? inside, member⟩
  | _ => cases found

theorem lookup_literals {path : List String} {v w : Json} (found : lookup path v = some w) :
    w.literals ⊆ v.literals := by
  induction path generalizing v with
  | nil =>
    obtain rfl := Option.some.inj found
    exact fun _ member => member
  | cons segment rest ih =>
    obtain ⟨u, first, later⟩ := Option.bind_eq_some_iff.mp found
    exact fun _ member => child_literals first (ih later member)

theorem section_literals {d : Document} {path : String} {members : List (String × Json)}
    (found : d.section? path = .ok members) : (Json.obj members).literals ⊆ d.root.literals := by
  unfold section? at found
  split at found
  · cases found
  · next reached =>
    obtain rfl := Except.ok.inj found
    exact lookup_literals reached
  · cases found

/-- What is kept of a section stands in the document. -/
theorem kept_literals {d : Document} {path : String} {ignore : List String}
    {ks : List (String × Json)} (chosen : Compile.kept d path ignore = .ok ks) :
    (Json.obj ks).literals ⊆ d.root.literals := by
  obtain ⟨members, plans, found, choice⟩ := Compile.kept_ok chosen
  obtain ⟨-, rfl⟩ := Compile.keep_ok_iff.mp choice
  intro literal member
  rw [Json.literals, Json.memberLiterals_eq, List.mem_flatMap] at member
  obtain ⟨m, filtered, here⟩ := member
  refine section_literals found ?_
  rw [Json.literals, Json.memberLiterals_eq]
  exact List.mem_flatMap.mpr ⟨m, (List.mem_filter.mp filtered).1, here⟩

end Document

namespace Digest
open Literal (StartsNumber)
open Encode (InRange)

/-- A section can be digested exactly if each literal in what it keeps can. -/
theorem ofSection_isOk_iff {d : Document} {path : String} {ignore : List String}
    {ks : List (String × Json)} (chosen : Compile.kept d path ignore = .ok ks) :
    (∃ digest, ofSection d path ignore = .ok digest) ↔
      ∀ literal ∈ (Json.obj ks).literals, Encode.Digestible literal := by
  simp only [ofSection_ok_iff, chosen, Except.ok.injEq, exists_eq_left', ofSchemas, map_ok_iff,
    canonicalText_ok_iff]
  constructor
  · rintro ⟨-, -, ⟨-, all⟩, -⟩
    exact all
  · intro all
    exact ⟨_, _, ⟨rfl, all⟩, rfl⟩

/-- A section that compiles has a digest if every number in the schemas that are kept, under
    whatever keyword, is a JSON number below the limit of doubles, and only if every number that
    starts like one is. In a document in JSON all of them do, so there the numbers settle it. -/
theorem compiled_digest_iff {format : DocumentFormat} {text : Bytes} {root : Json}
    {o : CompileOptions} {canceled : Bool} {r : CompiledDocument}
    (parsed : Document.parse format text = .ok root)
    (compiled : Compile.document ⟨root⟩ o canceled = .ok r) :
    ∃ ks, Compile.kept ⟨root⟩ o.section_ o.ignore = .ok ks ∧
      ((∀ literal ∈ (Json.obj ks).literals, InRange literal) →
        ∃ digest, ofSection ⟨root⟩ o.section_ o.ignore = .ok digest) ∧
      ((∃ digest, ofSection ⟨root⟩ o.section_ o.ignore = .ok digest) →
        ∀ literal ∈ (Json.obj ks).literals, StartsNumber literal → InRange literal) ∧
      (format = .json → ((∃ digest, ofSection ⟨root⟩ o.section_ o.ignore = .ok digest) ↔
        ∀ literal ∈ (Json.obj ks).literals, InRange literal)) := by
  obtain ⟨selection, selected, -⟩ := Compile.document_ok compiled
  obtain ⟨ks, chosen, -⟩ := Compile.select_ok selected
  have enough : (∀ literal ∈ (Json.obj ks).literals, InRange literal) →
      ∃ digest, ofSection ⟨root⟩ o.section_ o.ignore = .ok digest := by
    intro all
    refine (ofSection_isOk_iff chosen).mpr fun literal member => ?_
    obtain ⟨cs, ws, q, spelled, number, -⟩ := all literal member
    exact (Encode.digestible_iff_inRange (Literal.startsNumber_of_number spelled number)).mpr
      (all literal member)
  have needed : (∃ digest, ofSection ⟨root⟩ o.section_ o.ignore = .ok digest) →
      ∀ literal ∈ (Json.obj ks).literals, StartsNumber literal → InRange literal :=
    fun digested literal member starts => (Encode.digestible_iff_inRange starts).mp
      ((ofSection_isOk_iff chosen).mp digested literal member)
  refine ⟨ks, chosen, enough, needed, ?_⟩
  rintro rfl
  have starts : ∀ literal ∈ (Json.obj ks).literals, StartsNumber literal := fun literal member =>
    Json.load_numbers (mapError_ok_iff.mp parsed) literal (Document.kept_literals chosen member)
  refine ⟨fun digested literal member => ?_, enough⟩
  exact needed digested literal member (starts literal member)

namespace Sample

/-- A schema with a number under a keyword that is not compiled. -/
def noted (number : String) : Bytes :=
  Utf8.encodeChars ("\x7b\"A\":\x7b\"type\":\"string\",\"note\":" ++ number ++ "\x7d\x7d").toList

def notedTree (number : String) : Json :=
  .obj [("A", .obj [("type", .str "string"), ("note", .num number)])]

def whole : CompileOptions := ⟨"", [], true⟩

end Sample

theorem noted_digest : ∃ r digest,
    Document.parse .json (Sample.noted "7e2") = .ok (Sample.notedTree "7e2") ∧
      Compile.document ⟨Sample.notedTree "7e2"⟩ Sample.whole false = .ok r ∧
      ofSection ⟨Sample.notedTree "7e2"⟩ "" [] = .ok digest := by
  have parsed : Document.parse .json (Sample.noted "7e2") = .ok (Sample.notedTree "7e2") := by rfl
  have compiles : (Compile.document ⟨Sample.notedTree "7e2"⟩ Sample.whole false).toOption.any
      (fun _ => true) = true := by decide +kernel
  obtain ⟨r, compiled, -⟩ := toOption_any_iff.mp compiles
  obtain ⟨ks, chosen, -, -, settled⟩ := compiled_digest_iff parsed compiled
  have kept : Compile.kept ⟨Sample.notedTree "7e2"⟩ "" [] =
      .ok [("A", .obj [("type", .str "string"), ("note", .num "7e2")])] := by rfl
  obtain rfl := Except.ok.inj (chosen.symm.trans kept)
  have number : Json.Grammar.Number "7e2".toList :=
    @Json.Grammar.Number.spelled [] ['7'] [] ['e', '2'] (.inl rfl) (by decide) .none
      (@Json.Grammar.Exponent.mark 'e' [] ['2'] (.inl rfl) (.inl rfl) (by decide))
  have small : InRange "7e2" :=
    ⟨_, [], _, (List.append_nil _).symm, number, by decide, Literal.parts_numeral number,
      (Literal.double_isSome_iff number (Literal.parts_numeral number)).mp (by decide +kernel)⟩
  obtain ⟨digest, digested⟩ := (settled rfl).mpr fun literal member => by
    obtain rfl := List.mem_singleton.mp member
    exact small
  exact ⟨r, digest, parsed, compiled, digested⟩

/-- A number beyond the limit is no hindrance to compiling, and there is no digest then. -/
theorem vast_note_undigested : ∃ r,
    Document.parse .json (Sample.noted "1e400") = .ok (Sample.notedTree "1e400") ∧
      Compile.document ⟨Sample.notedTree "1e400"⟩ Sample.whole false = .ok r ∧
      ¬ ∃ digest, ofSection ⟨Sample.notedTree "1e400"⟩ "" [] = .ok digest := by
  have parsed : Document.parse .json (Sample.noted "1e400") =
      .ok (Sample.notedTree "1e400") := by rfl
  have compiles : (Compile.document ⟨Sample.notedTree "1e400"⟩ Sample.whole false).toOption.any
      (fun _ => true) = true := by decide +kernel
  obtain ⟨r, compiled, -⟩ := toOption_any_iff.mp compiles
  refine ⟨r, parsed, compiled, fun digested => ?_⟩
  have kept : Compile.kept ⟨Sample.notedTree "1e400"⟩ "" [] =
      .ok [("A", .obj [("type", .str "string"), ("note", .num "1e400")])] := by rfl
  obtain ⟨v, read, small⟩ := (ofSection_isOk_iff kept).mp digested "1e400" List.mem_cons_self
  have number : Encode.literal "1e400" = .ok (.num "1e400") := by rfl
  obtain rfl := Except.ok.inj (read.symm.trans number)
  cases small

end Digest

end SchemaForge
