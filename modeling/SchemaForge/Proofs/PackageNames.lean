import SchemaForge.Proofs.Drift

/-!
The package of a configuration. A name is derived from the last segment of the output directory: its
small letters, digits and underscores, from the first that is no digit. Where nothing of use is left
the name is a fixed one. So a configuration breaks the rule for packages only with a package of its
own, and the package of one that keeps all rules can always be printed.
-/
namespace SchemaForge

namespace Config

/-- What a package clause can name: an identifier that is neither a keyword nor blank. -/
structure IsPackageName (name : String) : Prop where
  spelled : Ident.isIdentifierChars name.toList = true
  free : name ∉ Ident.keywords
  named : name ≠ "_"

theorem isPackageName_iff {name : String} :
    IsPackageName name ↔ Ident.isIdentifier name = true ∧ name ≠ "_" := by
  constructor
  · rintro ⟨spelled, free, named⟩
    exact ⟨by simp [Ident.isIdentifier, spelled, free], named⟩
  · rintro ⟨identifier, named⟩
    obtain ⟨spelled, free⟩ := Bool.and_eq_true_iff.mp identifier
    exact ⟨spelled, by simpa using free, named⟩

/-! ### The derived name -/

def isSmall (c : Char) : Bool := ('a' ≤ c && c ≤ 'z') || c = '_'

/-- The characters of a derived name. -/
def isKept (c : Char) : Bool := isSmall c || Text.isAsciiDigit c

/-- What is left of the name of a directory. -/
def stem (dir : String) : String :=
  String.ofList
    ((((Path.base (Path.clean dir)).toList.map lower).filter isKept).dropWhile Text.isAsciiDigit)

theorem isKept_low {c : Char} (kept : isKept c = true) : c.toNat < 0x80 := by
  simp only [isKept, isSmall, Text.isAsciiDigit, Bool.or_eq_true, Bool.and_eq_true,
    decide_eq_true_eq] at kept
  rcases kept with (letter | rfl) | digit
  · exact Nat.lt_of_le_of_lt (m := 'z'.toNat) letter.2 (by decide)
  · decide
  · exact Nat.lt_of_le_of_lt (m := '9'.toNat) digit.2 (by decide)

/-- Of the characters that are kept the digits alone cannot begin an identifier. -/
theorem isKept_part {c : Char} (kept : isKept c = true) :
    Ident.isPart c = true ∧ isSmall c = !Text.isAsciiDigit c ∧ Ident.isLetter c = isSmall c := by
  have table : ∀ code < 0x80, isKept (Char.ofNat code) = true →
      Ident.isPart (Char.ofNat code) = true ∧
        isSmall (Char.ofNat code) = !Text.isAsciiDigit (Char.ofNat code) ∧
        Ident.isLetter (Char.ofNat code) = isSmall (Char.ofNat code) := by decide
  have here := table c.toNat (isKept_low kept)
  rw [Char.ofNat_toNat] at here
  exact here kept

theorem packageChars_cons (kept : List Char) (c : Char) (cs : List Char) :
    packageChars kept (c :: cs) =
      if isSmall c || Text.isAsciiDigit c && !kept.isEmpty then packageChars (c :: kept) cs
      else packageChars kept cs := by
  rw [packageChars]
  change (if isSmall c then _ else if Text.isAsciiDigit c && !kept.isEmpty then _ else _) = _
  cases isSmall c <;> rfl

/-- Behind the first character digits are kept as well. -/
theorem packageChars_begun {kept : List Char} (begun : kept.isEmpty = false) (cs : List Char) :
    packageChars kept cs = kept.reverse ++ cs.filter isKept := by
  induction cs generalizing kept with
  | nil => simp [packageChars]
  | cons c cs ih =>
    rw [packageChars_cons, begun, Bool.not_false, Bool.and_true, List.filter_cons]
    change (if isKept c then _ else _) = _
    split
    · rw [ih rfl, List.reverse_cons, List.append_assoc]
      rfl
    · exact ih begun

theorem packageChars_eq (cs : List Char) :
    packageChars [] cs = (cs.filter isKept).dropWhile Text.isAsciiDigit := by
  induction cs with
  | nil => rfl
  | cons c cs ih =>
    rw [packageChars_cons, List.isEmpty_nil, Bool.not_true, Bool.and_false, Bool.or_false]
    cases kept : isKept c with
    | false =>
      have other : isSmall c = false := (Bool.or_eq_false_iff.mp kept).1
      rw [if_neg (by simp [other]), List.filter_cons_of_neg (by simp [kept]), ih]
    | true =>
      -- Nothing is kept so far: a digit is passed over, any other character begins the name.
      obtain ⟨-, apart, -⟩ := isKept_part kept
      rw [List.filter_cons_of_pos kept, List.dropWhile_cons, apart]
      cases Text.isAsciiDigit c with
      | false => exact packageChars_begun rfl cs
      | true => exact ih

/-- What is kept from the first that is no digit is spelled as an identifier. -/
theorem spelled_kept {cs : List Char} (kept : ∀ c ∈ cs, isKept c = true)
    (left : cs.dropWhile Text.isAsciiDigit ≠ []) :
    Ident.isIdentifierChars (cs.dropWhile Text.isAsciiDigit) = true := by
  have inside := (List.dropWhile_sublist (p := Text.isAsciiDigit) (l := cs)).subset
  have head := List.head?_dropWhile_not Text.isAsciiDigit cs
  cases chars : cs.dropWhile Text.isAsciiDigit with
  | nil => exact absurd chars left
  | cons c rest =>
    rw [chars] at inside head
    have first : Text.isAsciiDigit c = false := head
    obtain ⟨-, apart, letter⟩ := isKept_part (kept c (inside List.mem_cons_self))
    rw [Ident.isIdentifierChars, letter, apart, first, Bool.not_false, Bool.true_and,
      List.all_eq_true]
    intro x member
    exact (isKept_part (kept x (inside (List.mem_cons_of_mem c member)))).1

theorem stem_kept {dir : String} {c : Char} (member : c ∈ (stem dir).toList) :
    isKept c = true := by
  rw [stem, String.toList_ofList] at member
  exact (List.mem_filter.mp ((List.dropWhile_sublist _).mem member)).2

theorem stem_spelled {dir : String} (left : stem dir ≠ "") :
    Ident.isIdentifierChars (stem dir).toList = true := by
  rw [stem, String.toList_ofList]
  refine spelled_kept (fun c member => (List.mem_filter.mp member).2) fun empty => left ?_
  rw [stem, empty]

theorem isPackageName_default : IsPackageName defaultPackage :=
  isPackageName_iff.mpr (by decide)

/-- The stem is taken if it can name a package. -/
theorem packageName_cases (dir : String) :
    packageName dir = stem dir ∧ IsPackageName (stem dir) ∨
      packageName dir = defaultPackage ∧ ¬ IsPackageName (stem dir) := by
  have same : String.ofList (packageChars [] ((Path.base (Path.clean dir)).toList.map lower)) =
      stem dir := by rw [packageChars_eq, stem]
  unfold packageName
  rw [same]
  by_cases left : stem dir = "" || stem dir = "_" || Ident.keywords.contains (stem dir)
  · refine .inr ⟨if_pos left, fun legal => ?_⟩
    simp only [Bool.or_eq_true, decide_eq_true_eq, List.contains_iff_mem] at left
    rcases left with (empty | blank) | keyword
    · have spelled := legal.spelled
      rw [empty] at spelled
      cases spelled
    · exact legal.named blank
    · exact legal.free keyword
  · refine .inl ⟨if_neg left, ?_⟩
    simp only [Bool.or_eq_true, decide_eq_true_eq, List.contains_iff_mem, not_or] at left
    obtain ⟨⟨some_, named⟩, free⟩ := left
    exact ⟨stem_spelled some_, free, named⟩

theorem isPackageName_packageName (dir : String) : IsPackageName (packageName dir) := by
  rcases packageName_cases dir with ⟨same, legal⟩ | ⟨same, -⟩
  · rwa [same]
  · rw [same]
    exact isPackageName_default

theorem packageName_low (dir : String) : ∀ c ∈ (packageName dir).toList, c.toNat < 0x80 := by
  rcases packageName_cases dir with ⟨same, -⟩ | ⟨same, -⟩
  · rw [same]
    exact fun c member => isKept_low (stem_kept member)
  · have low : defaultPackage.toList.all (·.toNat < 0x80) = true := by decide
    rw [same]
    simpa using low

/-! ### The rule for packages -/

theorem mem_ruled {holds : Bool} {v w : Violation} : w ∈ ruled holds v ↔ holds = false ∧ w = v := by
  cases holds <;> simp [ruled]

theorem ignoreViolations_field {index : Nat} {patterns : List String} {v : Violation}
    (member : v ∈ ignoreViolations index patterns) : ∃ i, v.1 = .ignore i := by
  induction patterns generalizing index with
  | nil => cases member
  | cons p rest ih =>
    rcases List.mem_append.mp member with here | later
    · exact ⟨index, by rw [(mem_ruled.mp here).2]⟩
    · exact ih later

theorem outFileViolations_field {name : String} {v : Violation}
    (member : v ∈ outFileViolations name) : v.1 = .outFile := by
  unfold outFileViolations at member
  split at member
  · cases member
  · split at member
    · rw [List.mem_singleton.mp member]
    · rw [(mem_ruled.mp member).2]

/-- No other rule is about the package. -/
theorem mem_violations_package {c : Config} {rule : Rule} :
    (.package, rule) ∈ c.violations ↔ (.package, rule) ∈ packageViolations c.package := by
  have ignore : (.package, rule) ∉ ignoreViolations 0 c.ignore := by
    intro member
    obtain ⟨i, field⟩ := ignoreViolations_field member
    cases field
  have outFile : (.package, rule) ∉ outFileViolations c.outFile := by
    intro member
    cases outFileViolations_field member
  simp [violations, formatViolations, mem_ruled, ignore, outFile]

theorem mem_packageViolations {package : String} {rule : Rule} :
    (.package, rule) ∈ packageViolations package ↔
      package ≠ "" ∧ ¬ IsPackageName package ∧ rule = .packageClause := by
  rw [packageViolations, mem_ruled, isPackageName_iff, ← and_assoc]
  refine and_congr ?_ (by simp)
  simp

theorem withDefaults_package (c : Config) :
    c.package ≠ "" ∧ c.withDefaults.package = c.package ∨
      c.package = "" ∧ c.withDefaults.package = packageName c.withDefaults.outDir := by
  by_cases empty : c.package = ""
  · exact .inr ⟨empty, by simp [withDefaults, orDefault, empty]⟩
  · exact .inl ⟨empty, by simp [withDefaults, orDefault, empty]⟩

theorem package_violated_iff (c : Config) (rule : Rule) :
    (.package, rule) ∈ c.withDefaults.violations ↔
      c.package ≠ "" ∧ ¬ IsPackageName c.package ∧ rule = .packageClause := by
  rw [mem_violations_package, mem_packageViolations]
  rcases c.withDefaults_package with ⟨-, same⟩ | ⟨empty, derived⟩
  · rw [same]
  · have legal : IsPackageName c.withDefaults.package := by
      rw [derived]
      exact isPackageName_packageName _
    simp [empty, legal]

theorem check_package {c checked : Config} (valid : c.check = .ok checked) :
    IsPackageName checked.package := by
  rw [check] at valid
  split at valid
  · next clean =>
    obtain rfl := Except.ok.inj valid
    rcases c.withDefaults_package with ⟨given, same⟩ | ⟨-, derived⟩
    · rw [same]
      by_contra illegal
      have violated := (package_violated_iff c .packageClause).mpr ⟨given, illegal, rfl⟩
      rw [clean] at violated
      cases violated
    · rw [derived]
      exact isPackageName_packageName _
  · cases valid

end Config

namespace Code.PackageText

/-- A package is refused for its name exactly if that is no identifier. -/
theorem render_refused_iff {p : PackageText} {package header name : String} :
    p.render package header = .error (.invalidPackage name) ↔
      Ident.isIdentifier package = false ∧ name = package := by
  unfold render
  cases Ident.isIdentifier package with
  | false => simp [eq_comm]
  | true =>
    refine iff_of_false (fun refused => ?_) (by simp)
    simp only [Bool.not_true, Bool.false_eq_true, if_false] at refused
    split at refused
    · cases refused
    · split at refused <;> cases refused

end Code.PackageText

namespace Config

/-- The package that is derived from a directory is a legal name in ASCII: what is left of the name
    of the directory, or a fixed name if that is not legal. A configuration breaks the rule for
    packages only with an illegal package of its own, printing never refuses the package of a
    configuration that keeps all rules, and defaults are settled by their first use. -/
theorem packages_legal :
    (∀ dir, IsPackageName (packageName dir) ∧ (∀ c ∈ (packageName dir).toList, c.toNat < 0x80) ∧
      (packageName dir = stem dir ∧ IsPackageName (stem dir) ∨
        packageName dir = defaultPackage ∧ ¬ IsPackageName (stem dir))) ∧
    (∀ (c : Config) (rule : Rule), (.package, rule) ∈ c.withDefaults.violations ↔
      c.package ≠ "" ∧ ¬ IsPackageName c.package ∧ rule = .packageClause) ∧
    (∀ c checked : Config, c.check = .ok checked → ∀ (p : Code.PackageText) (header name : String),
      p.render checked.package header ≠ .error (.invalidPackage name)) ∧
    (∀ c : Config, c.withDefaults.withDefaults = c.withDefaults) := by
  refine ⟨fun dir => ⟨isPackageName_packageName dir, packageName_low dir, packageName_cases dir⟩,
    package_violated_iff, fun c checked valid p header name refused => ?_, withDefaults_again⟩
  obtain ⟨identifier, -⟩ := isPackageName_iff.mp (check_package valid)
  obtain ⟨none, -⟩ := Code.PackageText.render_refused_iff.mp refused
  rw [identifier] at none
  cases none

/-- Its output directory is called like a keyword, as soon as the digit in front is dropped and the
    dotted capital is made small. -/
def dotted : Config := { source := "pets.json", outDir := "lib//7\u0130f/x/.." }

theorem dotted_package_legal :
    stem dotted.outDir = "if" ∧ packageName dotted.outDir = "validators" ∧
      dotted.check = .ok dotted.withDefaults ∧
      ∀ (p : Code.PackageText) (header name : String),
        p.render dotted.withDefaults.package header ≠ .error (.invalidPackage name) := by
  obtain ⟨derived, -, printed, -⟩ := packages_legal
  have keyword : stem dotted.outDir = "if" := by decide
  have clean : dotted.withDefaults.violations = [] := by decide
  have valid : dotted.check = .ok dotted.withDefaults := by rw [check, clean]
  refine ⟨keyword, ?_, valid, printed dotted dotted.withDefaults valid⟩
  rcases (derived dotted.outDir).2.2 with ⟨-, legal⟩ | ⟨fixed, -⟩
  · exact absurd (by rw [keyword]; decide) legal.free
  · exact fixed

end Config

end SchemaForge
