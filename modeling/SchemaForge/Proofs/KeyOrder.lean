import Mathlib.Data.List.Nodup
import SchemaForge.Proofs.Digesting

/-!
The order of members does not count in a digest. Names are told apart by their 16-bit units, so
sorting by units settles the order of distinct names; and a tree whose members are rearranged, at
any depth, has the same literals and the same canonical text.
-/
namespace SchemaForge

/-- The order of members with distinct names does not count when one is looked up. -/
theorem Members.get_perm {α : Type} {members others : List (String × α)}
    (order : members.Perm others) (once : (keys members).Nodup) (key : String) :
    get? key members = get? key others := by
  have once' : (keys others).Nodup := (order.map _).nodup_iff.mp once
  refine Option.ext fun v => ⟨fun found => ?_, fun found => ?_⟩
  · exact get_of_mem once' (order.mem_iff.mp (mem_of_get found))
  · exact get_of_mem once (order.mem_iff.mpr (mem_of_get found))

namespace Canonical

theorem unitsLe_antisymm {as bs : List Nat} (first : unitsLe as bs = true)
    (second : unitsLe bs as = true) : as = bs := by
  induction as generalizing bs with
  | nil =>
    cases bs with
    | nil => rfl
    | cons b bs => cases second
  | cons a as ih =>
    cases bs with
    | nil => cases first
    | cons b bs =>
      rw [unitsLe] at first second
      by_cases same : a = b
      · subst same
        rw [if_pos rfl] at first second
        rw [ih first second]
      · rw [if_neg same, decide_eq_true_eq] at first
        rw [if_neg (Ne.symm same), decide_eq_true_eq] at second
        omega

theorem unitsLe_trans {as bs cs : List Nat} (first : unitsLe as bs = true)
    (second : unitsLe bs cs = true) : unitsLe as cs = true := by
  induction as generalizing bs cs with
  | nil => rw [unitsLe]
  | cons a as ih =>
    cases bs with
    | nil => cases first
    | cons b bs =>
      cases cs with
      | nil => cases second
      | cons c cs =>
        rw [unitsLe] at first second ⊢
        by_cases same : a = b
        · subst same
          rw [if_pos rfl] at first
          split at second
          · next same => rw [if_pos same, ih first second]
          · next apart => rwa [if_neg apart]
        · rw [if_neg same, decide_eq_true_eq] at first
          split at second
          · next equal =>
            subst equal
            rwa [if_neg same, decide_eq_true_eq]
          · rw [decide_eq_true_eq] at second
            rw [if_neg (by omega), decide_eq_true_eq]
            omega

theorem unitsLe_total (as bs : List Nat) : (unitsLe as bs || unitsLe bs as) = true := by
  induction as generalizing bs with
  | nil => simp [unitsLe]
  | cons a as ih =>
    cases bs with
    | nil => simp [unitsLe]
    | cons b bs =>
      rw [unitsLe, unitsLe]
      by_cases same : a = b
      · simpa [same] using ih bs
      · rw [if_neg same, if_neg (Ne.symm same), Bool.or_eq_true, decide_eq_true_eq,
          decide_eq_true_eq]
        omega

/-- One unit that is no surrogate, or a high and a low one. -/
theorem units_cases (c : Char) :
    (units c = [c.toNat] ∧ (c.toNat < 0xd800 ∨ 0xe000 ≤ c.toNat)) ∨
    ∃ high low, units c = [high, low] ∧ 0xd800 ≤ high ∧ high < 0xdc00 ∧ 0xdc00 ≤ low ∧
      c.toNat = 0x10000 + (high - 0xd800) * 0x400 + (low - 0xdc00) := by
  have range : c.toNat < 0xd800 ∨ 0xdfff < c.toNat ∧ c.toNat < 0x110000 := c.valid
  rw [units]
  split
  · exact .inl ⟨rfl, by omega⟩
  · exact .inr ⟨_, _, rfl, by omega, by omega, by omega, by omega⟩

theorem units_append {c d : Char} {as bs : List Nat} (same : units c ++ as = units d ++ bs) :
    c = d ∧ as = bs := by
  rcases units_cases c with ⟨one, scalar⟩ | ⟨high, low, two, _, _, _, value⟩ <;>
    rcases units_cases d with ⟨one', scalar'⟩ | ⟨high', low', two', _, _, _, value'⟩
  · rw [one, one'] at same
    obtain ⟨first, rest⟩ := List.cons.inj same
    exact ⟨Char.toNat_inj.mp first, rest⟩
  · rw [one, two'] at same
    have first := (List.cons.inj same).1
    omega
  · rw [two, one'] at same
    have first := (List.cons.inj same).1
    omega
  · rw [two, two'] at same
    obtain ⟨rfl, later⟩ := List.cons.inj same
    obtain ⟨rfl, rest⟩ := List.cons.inj later
    exact ⟨Char.toNat_inj.mp (value.trans value'.symm), rest⟩

theorem unitsOf_injective {s t : String} (same : unitsOf s = unitsOf t) : s = t := by
  have nonempty : ∀ c : Char, units c ≠ [] := by
    intro c
    rcases units_cases c with ⟨one, -⟩ | ⟨high, low, two, -⟩ <;> simp [*]
  unfold unitsOf at same
  apply String.toList_injective
  generalize s.toList = cs at same
  generalize t.toList = ds at same
  induction cs generalizing ds with
  | nil =>
    cases ds with
    | nil => rfl
    | cons d ds => simp [nonempty d] at same
  | cons c cs ih =>
    cases ds with
    | nil => simp [nonempty c] at same
    | cons d ds =>
      rw [List.flatMap_cons, List.flatMap_cons] at same
      obtain ⟨rfl, rest⟩ := units_append same
      rw [ih ds rest]

theorem keyLe_antisymm {a b : String} (first : keyLe a b = true) (second : keyLe b a = true) :
    a = b :=
  unitsOf_injective (unitsLe_antisymm first second)

theorem sorted_byKey {α : Type} (members : List (String × α)) :
    (members.mergeSort fun a b => keyLe a.1 b.1).Pairwise fun a b => keyLe a.1 b.1 = true := by
  apply List.pairwise_mergeSort
  · exact fun a b c => unitsLe_trans
  · exact fun a b => unitsLe_total (unitsOf a.1) (unitsOf b.1)

/-- Members with distinct names are sorted in one way only. -/
theorem sorted_unique {α : Type} {members others : List (String × α)}
    (order : members.Perm others) (distinct : (Members.keys members).Nodup) :
    (members.mergeSort fun a b => keyLe a.1 b.1) = others.mergeSort fun a b => keyLe a.1 b.1 := by
  refine List.Perm.eq_of_pairwise (fun a b here there le ge => ?_) (sorted_byKey members)
    (sorted_byKey others) ?_
  · have first := (List.mergeSort_perm _ _).mem_iff.mp here
    have second := order.mem_iff.mpr ((List.mergeSort_perm _ _).mem_iff.mp there)
    exact List.inj_on_of_nodup_map distinct first second (keyLe_antisymm le ge)
  · exact (List.mergeSort_perm _ _).trans (order.trans (List.mergeSort_perm _ _).symm)

theorem itemTexts_eq (items : List Json) : itemTexts items = items.map text := by
  induction items with
  | nil => rfl
  | cons v rest ih => rw [itemTexts, ih, List.map_cons]

theorem memberTexts_eq (members : List (String × Json)) :
    memberTexts members = members.map fun m => (m.1, text m.2) := by
  induction members with
  | nil => rfl
  | cons m rest ih => rw [memberTexts, ih, List.map_cons]

end Canonical

namespace Json

mutual

/-- Every object has each of its names once. -/
def unambiguous : Json → Bool
  | .arr items => unambiguousItems items
  | .obj members => (Members.keys members).Nodup && unambiguousMembers members
  | _ => true

def unambiguousItems : List Json → Bool
  | [] => true
  | v :: rest => unambiguous v && unambiguousItems rest

def unambiguousMembers : List (String × Json) → Bool
  | [] => true
  | (_, v) :: rest => unambiguous v && unambiguousMembers rest

end

theorem unambiguous_arr {items : List Json} :
    (Json.arr items).unambiguous = true ↔ ∀ v ∈ items, v.unambiguous = true := by
  rw [unambiguous]
  induction items with
  | nil => simp [unambiguousItems]
  | cons v rest ih => simp [unambiguousItems, ih]

theorem unambiguous_obj {members : List (String × Json)} :
    (Json.obj members).unambiguous = true ↔
      (Members.keys members).Nodup ∧ ∀ m ∈ members, m.2.unambiguous = true := by
  rw [unambiguous, Bool.and_eq_true, decide_eq_true_eq]
  have values : unambiguousMembers members = true ↔ ∀ m ∈ members, m.2.unambiguous = true := by
    induction members with
    | nil => simp [unambiguousMembers]
    | cons m rest ih => rw [unambiguousMembers, Bool.and_eq_true, ih, List.forall_mem_cons]
  rw [values]

mutual

/-- Trees that differ in the order of members only, at any depth. -/
inductive Rearranged : Json → Json → Prop
  | null : Rearranged .null .null
  | bool (b : Bool) : Rearranged (.bool b) (.bool b)
  | num (text : String) : Rearranged (.num text) (.num text)
  | str (text : String) : Rearranged (.str text) (.str text)
  | arr {items others : List Json} (each : RearrangedItems items others) :
      Rearranged (.arr items) (.arr others)
  | obj {members between others : List (String × Json)}
      (each : RearrangedMembers members between) (order : between.Perm others) :
      Rearranged (.obj members) (.obj others)

inductive RearrangedItems : List Json → List Json → Prop
  | nil : RearrangedItems [] []
  | cons {v w : Json} {items others : List Json} (value : Rearranged v w)
      (rest : RearrangedItems items others) : RearrangedItems (v :: items) (w :: others)

/-- The same names in the same order, with values that are rearranged. -/
inductive RearrangedMembers : List (String × Json) → List (String × Json) → Prop
  | nil : RearrangedMembers [] []
  | cons {key : String} {v w : Json} {members others : List (String × Json)}
      (value : Rearranged v w) (rest : RearrangedMembers members others) :
      RearrangedMembers ((key, v) :: members) ((key, w) :: others)

end

theorem RearrangedMembers.keys_eq {members others : List (String × Json)}
    (each : RearrangedMembers members others) : Members.keys members = Members.keys others := by
  induction members generalizing others with
  | nil =>
    cases each
    rfl
  | cons m members ih =>
    cases each with
    | cons value rest =>
      have same := ih rest
      unfold Members.keys at same ⊢
      rw [List.map_cons, List.map_cons, same]

theorem Rearranged.keys {members others : List (String × Json)}
    (same : Rearranged (.obj members) (.obj others)) :
    (Members.keys members).Perm (Members.keys others) := by
  cases same with
  | obj each order =>
    rw [each.keys_eq]
    exact order.map _

mutual

theorem Rearranged.literals {v w : Json} (same : Rearranged v w) (text : String) :
    text ∈ v.literals ↔ text ∈ w.literals := by
  cases same with
  | arr each => exact each.literals text
  | obj each order =>
    rw [Json.literals, each.literals, memberLiterals_eq, Json.literals, memberLiterals_eq]
    exact (order.flatMap fun m _ => List.Perm.refl _).mem_iff
  | _ => exact Iff.rfl

theorem RearrangedItems.literals {items others : List Json} (each : RearrangedItems items others)
    (text : String) : text ∈ itemLiterals items ↔ text ∈ itemLiterals others := by
  cases each with
  | nil => exact Iff.rfl
  | cons value rest =>
    rw [itemLiterals, itemLiterals, List.mem_append, List.mem_append, value.literals, rest.literals]

theorem RearrangedMembers.literals {members others : List (String × Json)}
    (each : RearrangedMembers members others) (text : String) :
    text ∈ memberLiterals members ↔ text ∈ memberLiterals others := by
  cases each with
  | nil => exact Iff.rfl
  | cons value rest =>
    rw [memberLiterals, memberLiterals, List.mem_append, List.mem_append, value.literals,
      rest.literals]

end

theorem RearrangedMembers.filter {members others : List (String × Json)}
    (each : RearrangedMembers members others) (keep : String → Bool) :
    RearrangedMembers (members.filter fun m => keep m.1) (others.filter fun m => keep m.1) := by
  induction members generalizing others with
  | nil =>
    cases each
    exact .nil
  | cons m members ih =>
    cases each with
    | @cons key v w _ others value rest =>
      cases kept : keep key with
      | true => simpa [kept] using @RearrangedMembers.cons key _ _ _ _ value (ih rest)
      | false => simpa [kept] using ih rest

open Encode (meant)

theorem text_meant_obj (members : List (String × Json)) :
    Canonical.text (meant (.obj members)) = "\x7b" ++ Text.joinWith ","
      (((members.map fun m => (m.1, Canonical.text (meant m.2))).mergeSort
        fun a b => Canonical.keyLe a.1 b.1).map Canonical.memberText) ++ "\x7d" := by
  rw [meant, Encode.meantMembers_eq, Canonical.text, Canonical.memberTexts_eq, List.map_map]
  rfl

mutual

theorem Rearranged.text {v w : Json} (same : Rearranged v w) (distinct : v.unambiguous = true) :
    Canonical.text (meant v) = Canonical.text (meant w) := by
  cases same with
  | arr each =>
    have texts := each.texts (unambiguous_arr.mp distinct)
    rw [meant, meant, Canonical.text, Canonical.text, Encode.meantItems_eq, Encode.meantItems_eq,
      Canonical.itemTexts_eq, Canonical.itemTexts_eq, List.map_map, List.map_map]
    rw [Function.comp_def, texts]
  | @obj members between others each order =>
    obtain ⟨once, values⟩ := unambiguous_obj.mp distinct
    rw [text_meant_obj, text_meant_obj, each.texts values]
    -- The names are distinct before the texts are put beside them, and after.
    have keys : (Members.keys (between.map fun m => (m.1, Canonical.text (meant m.2)))).Nodup := by
      rw [each.keys_eq] at once
      simpa [Members.keys, Function.comp_def] using once
    rw [Canonical.sorted_unique (order.map _) keys]
  | _ => rfl

theorem RearrangedItems.texts {items others : List Json} (each : RearrangedItems items others)
    (distinct : ∀ v ∈ items, v.unambiguous = true) :
    (items.map fun v => Canonical.text (meant v)) =
      others.map fun v => Canonical.text (meant v) := by
  cases each with
  | nil => rfl
  | cons value rest =>
    obtain ⟨first, later⟩ := List.forall_mem_cons.mp distinct
    rw [List.map_cons, List.map_cons, value.text first, rest.texts later]

theorem RearrangedMembers.texts {members others : List (String × Json)}
    (each : RearrangedMembers members others)
    (distinct : ∀ m ∈ members, m.2.unambiguous = true) :
    (members.map fun m => (m.1, Canonical.text (meant m.2))) =
      others.map fun m => (m.1, Canonical.text (meant m.2)) := by
  cases each with
  | nil => rfl
  | cons value rest =>
    obtain ⟨first, later⟩ := List.forall_mem_cons.mp distinct
    rw [List.map_cons, List.map_cons, value.text first, rest.texts later]

end

end Json

namespace Compile

/-- Whether the patterns leave a name out, where they settle it. -/
def ignores (plans : List Glob.Plan) (name : String) : Bool :=
  (Ignore.matchesAny name plans).toOption.getD false

theorem keep_ok_iff {plans : List Glob.Plan} {members ks : List (String × Json)} :
    keep plans members = .ok ks ↔
      (∀ name ∈ Members.keys members, ∃ ignored, Ignore.matchesAny name plans = .ok ignored) ∧
        ks = members.filter fun m => !ignores plans m.1 := by
  induction members generalizing ks with
  | nil => simp [keep, Members.keys, eq_comm]
  | cons m rest ih =>
    obtain ⟨name, tree⟩ := m
    rw [Members.keys, List.map_cons, ← Members.keys]
    constructor
    · intro chosen
      obtain ⟨ignored, others, verdict, choice, rfl⟩ := keep_cons chosen
      obtain ⟨verdicts, rfl⟩ := ih.mp choice
      refine ⟨List.forall_mem_cons.mpr ⟨⟨ignored, verdict⟩, verdicts⟩, ?_⟩
      have left : ignores plans name = ignored := by simp [ignores, verdict, Except.toOption]
      cases ignored <;> simp [left]
    · rintro ⟨verdicts, rfl⟩
      obtain ⟨⟨ignored, verdict⟩, later⟩ := List.forall_mem_cons.mp verdicts
      have left : ignores plans name = ignored := by simp [ignores, verdict, Except.toOption]
      rw [keep, verdict, ih.mpr ⟨later, rfl⟩]
      cases ignored <;> simp [left, bind, Except.bind, pure, Except.pure]

theorem kept_ok_iff {d : Document} {path : String} {ignore : List String}
    {members ks : List (String × Json)} (found : d.section? path = .ok members) :
    kept d path ignore = .ok ks ↔
      ∃ plans, Ignore.plans ignore = .ok plans ∧ keep plans members = .ok ks := by
  rw [kept, found]
  cases Ignore.plans ignore with
  | error e => simp
  | ok plans => simp [mapError_ok_iff]

end Compile

namespace Digest
open Json (Rearranged)

theorem ofSchemas_rearranged {members others : List (String × Json)}
    (distinct : (Json.obj members).unambiguous = true)
    (same : Rearranged (.obj members) (.obj others)) (digest : String) :
    ofSchemas members = .ok digest ↔ ofSchemas others = .ok digest := by
  simp only [ofSchemas, map_ok_iff, canonicalText_ok_iff, same.text distinct, same.literals]

theorem rearranged_filter {members others : List (String × Json)}
    (same : Rearranged (.obj members) (.obj others)) (keep : String → Bool) :
    Rearranged (.obj (members.filter fun m => keep m.1))
      (.obj (others.filter fun m => keep m.1)) := by
  cases same with
  | obj each order => exact .obj (each.filter keep) (order.filter _)

theorem unambiguous_filter {members : List (String × Json)}
    (distinct : (Json.obj members).unambiguous = true) (keep : String → Bool) :
    (Json.obj (members.filter fun m => keep m.1)).unambiguous = true := by
  obtain ⟨once, values⟩ := Json.unambiguous_obj.mp distinct
  refine Json.unambiguous_obj.mpr ⟨once.sublist (List.filter_sublist.map _), ?_⟩
  exact fun m member => values m (List.mem_filter.mp member).1

/-- The digest of a section, said with the names that the patterns leave in. -/
theorem ofSection_filter_iff {d : Document} {path digest : String} {ignore : List String}
    {members : List (String × Json)} (found : d.section? path = .ok members) :
    ofSection d path ignore = .ok digest ↔
      ∃ plans, Ignore.plans ignore = .ok plans ∧
        (∀ name ∈ Members.keys members, ∃ ignored, Ignore.matchesAny name plans = .ok ignored) ∧
        ofSchemas (members.filter fun m => !Compile.ignores plans m.1) = .ok digest := by
  simp only [ofSection_ok_iff, Compile.kept_ok_iff found, Compile.keep_ok_iff]
  constructor
  · rintro ⟨_, ⟨plans, read, verdicts, rfl⟩, digested⟩
    exact ⟨plans, read, verdicts, digested⟩
  · rintro ⟨plans, read, verdicts, digested⟩
    exact ⟨_, ⟨plans, read, verdicts, rfl⟩, digested⟩

/-- Members in another order, in the section or in any object inside it, make no difference to the
    digest: there is the same one, or none on either side. -/
theorem digest_ignores_order {members others : List (String × Json)}
    (distinct : (Json.obj members).unambiguous = true)
    (same : Rearranged (.obj members) (.obj others)) :
    (∀ (keep : String → Bool) (digest : String),
      ofSchemas (members.filter fun m => keep m.1) = .ok digest ↔
        ofSchemas (others.filter fun m => keep m.1) = .ok digest) ∧
    ∀ (d e : Document) (path : String) (ignore : List String) (digest : String),
      d.section? path = .ok members → e.section? path = .ok others →
        (ofSection d path ignore = .ok digest ↔ ofSection e path ignore = .ok digest) := by
  have chosen : ∀ (keep : String → Bool) (digest : String),
      ofSchemas (members.filter fun m => keep m.1) = .ok digest ↔
        ofSchemas (others.filter fun m => keep m.1) = .ok digest := fun keep digest =>
    ofSchemas_rearranged (unambiguous_filter distinct keep) (rearranged_filter same keep) digest
  refine ⟨chosen, fun d e path ignore digest found found' => ?_⟩
  rw [ofSection_filter_iff found, ofSection_filter_iff found']
  refine exists_congr fun plans => and_congr_right fun _ => and_congr ?_ ?_
  · simp only [same.keys.mem_iff]
  · exact chosen (fun name => !Compile.ignores plans name) digest

namespace Sample

def stock : Json := .obj [("minimum", .num "0"), ("type", .str "integer")]

def restock : Json := .obj [("type", .str "integer"), ("minimum", .num "0")]

def shelf : List (String × Json) :=
  [("Item", .obj [("type", .str "object"), ("properties", .obj [("count", stock)])]),
    ("Draft", .num "1.")]

def turned : List (String × Json) :=
  [("Draft", .num "1."),
    ("Item", .obj [("properties", .obj [("count", restock)]), ("type", .str "object")])]

end Sample

theorem turned_shelf_digest :
    (Json.obj Sample.shelf).unambiguous = true ∧
      Rearranged (.obj Sample.shelf) (.obj Sample.turned) ∧
      (∃ digest, ofSchemas (Sample.shelf.filter fun m => m.1 != "Draft") = .ok digest ∧
        ofSchemas (Sample.turned.filter fun m => m.1 != "Draft") = .ok digest) ∧
      ∀ digest, ofSchemas Sample.turned ≠ .ok digest := by
  have distinct : (Json.obj Sample.shelf).unambiguous = true := by decide
  have stocks : Rearranged Sample.stock Sample.restock :=
    .obj (.cons (.num _) (.cons (.str _) .nil)) (.swap ..)
  have moved : Rearranged (.obj Sample.shelf) (.obj Sample.turned) := by
    refine .obj (.cons (.obj (.cons (.str _) (.cons (.obj (.cons stocks .nil) (.refl _)) .nil))
      (.swap ..)) (.cons (.num _) .nil)) (.swap ..)
  obtain ⟨same, -⟩ := digest_ignores_order distinct moved
  have zero : Encode.Digestible "0" := ⟨.num "0", rfl, rfl⟩
  obtain ⟨digest, first⟩ : ∃ digest,
      ofSchemas (Sample.shelf.filter fun m => m.1 != "Draft") = .ok digest := by
    refine ⟨_, map_ok_iff.mpr ⟨_, canonicalText_ok_iff.mpr ⟨rfl, ?_⟩, rfl⟩⟩
    simpa [Sample.shelf, Sample.stock, Json.literals, Json.memberLiterals] using zero
  have second := (same (· != "Draft") digest).mp first
  refine ⟨distinct, moved, ⟨digest, first, second⟩, fun digest all => ?_⟩
  -- What is left out does not have to be JSON; what is kept does.
  obtain ⟨text, whole, -⟩ := map_ok_iff.mp all
  obtain ⟨v, read, -⟩ := (canonicalText_ok_iff.mp whole).2 "1." List.mem_cons_self
  cases read

end Digest

end SchemaForge
