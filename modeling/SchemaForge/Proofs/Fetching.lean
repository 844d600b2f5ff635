import Mathlib.Algebra.Group.Nat.Defs
import SchemaForge.Fetch.Basic

/-!
The size limit of fetched documents. A reader asks for one byte more than the limit allows, so a
document that is longer is noticed and one that fits is read to its end. The one limit for which the
sum has no room in 64 bits is the largest number there is: then nothing is asked for, and an empty
document is handed over in place of the real one.
-/
namespace SchemaForge.Fetch

/-- The largest size that is allowed: what was asked for if it is positive, and 32 MiB otherwise. -/
def limit (maxBytes : Int64) : Nat :=
  if 0 < maxBytes.toInt then maxBytes.toInt.toNat else 32 * 2 ^ 20

theorem effectiveLimit_eq (maxBytes : Int64) :
    (effectiveLimit maxBytes).toInt = limit maxBytes := by
  unfold effectiveLimit limit
  split
  · next small =>
    have negative : maxBytes.toInt ≤ 0 := Int64.le_iff_toInt_le.mp small
    rw [if_neg (by omega)]
    rfl
  · next large =>
    have positive : ¬ maxBytes.toInt ≤ 0 := by
      intro small
      exact large (Int64.le_iff_toInt_le.mpr small)
    rw [if_pos (by omega)]
    omega

theorem limit_lt {maxBytes : Int64} (below : maxBytes ≠ Int64.maxValue) :
    limit maxBytes < 2 ^ 63 - 1 := by
  have top := Int64.toInt_le maxBytes
  have other : maxBytes.toInt ≠ Int64.maxValue.toInt := by
    intro same
    exact below (Int64.toInt_inj.mp same)
  have largest : Int64.maxValue.toInt = 2 ^ 63 - 1 := rfl
  unfold limit
  split
  · omega
  · decide

/-- Below the largest number, the sum is the real one. -/
theorem requested_eq {maxBytes : Int64} (below : maxBytes ≠ Int64.maxValue) :
    (requested maxBytes).toInt = limit maxBytes + 1 := by
  have room := limit_lt below
  have one : (1 : Int64).toInt = 1 := rfl
  unfold requested
  rw [Int64.toInt_add, effectiveLimit_eq, one]
  apply Int.bmod_eq_of_le
  · omega
  · omega

/-- At the largest number, the sum is the smallest one. -/
theorem requested_top : (requested Int64.maxValue).toInt.toNat = 0 := by decide

section
variable {maxBytes : Int64} (below : maxBytes ≠ Int64.maxValue) {content : Bytes}
include below

theorem taken_eq :
    content.take (requested maxBytes).toInt.toNat = content.take (limit maxBytes + 1) := by
  have asked := requested_eq below
  congr 1
  omega

theorem read_of_le (fits : content.length ≤ limit maxBytes) :
    readLimited maxBytes content = some content := by
  have whole : content.take (limit maxBytes + 1) = content := List.take_of_length_le (by omega)
  unfold readLimited
  simp only [taken_eq below, whole, effectiveLimit_eq]
  exact if_neg (by omega)

theorem read_of_lt (long : limit maxBytes < content.length) :
    readLimited maxBytes content = none := by
  have more : (content.take (limit maxBytes + 1)).length = limit maxBytes + 1 := by
    rw [List.length_take]
    omega
  unfold readLimited
  simp only [taken_eq below, more, effectiveLimit_eq]
  exact if_pos (by omega)

end

theorem read_top (content : Bytes) : readLimited Int64.maxValue content = some [] := by
  unfold readLimited
  simp only [requested_top, List.take_zero, effectiveLimit_eq]
  exact if_neg (by simp)

/-- What stands at a source: the content of a local file, or the body of a good response. -/
inductive Holds (t : FileTree) (web : Web) (source : String) (content : Bytes) : Prop
  | file {mode : Nat} (near : Url.scheme? source = none)
      (found : t.find source = .ok (.file content mode)) : Holds t web source content
  | body {scheme : String} {rest : List Char} {u : Url} {code : Nat}
      (far : Url.scheme? source = some (scheme, rest)) (address : Url.parse scheme rest = .ok u)
      (answer : web u.text = .response code content) (low : 200 ≤ code) (high : code ≤ 299) :
      Holds t web source content

section
variable {t : FileTree} {web : Web} {source : String} {content : Bytes} {maxBytes : Int64}

theorem Holds.named (holds : Holds t web source content) : source.isEmpty = false := by
  cases empty : source.isEmpty with
  | false => rfl
  | true =>
    rw [String.isEmpty_iff] at empty
    subst empty
    cases holds with
    | file near found => cases found
    | body far address answer low high => cases far

theorem good_status {code : Nat} (low : 200 ≤ code) (high : code ≤ 299) :
    (decide (code < 200) || decide (299 < code)) = false := by
  simp only [Bool.or_eq_false_iff, decide_eq_false_iff_not]
  omega

/-- A fetched document is what the limited reader makes of the content. -/
theorem Holds.fetched {data : Bytes} (holds : Holds t web source content)
    (read : readLimited maxBytes content = some data) :
    fetch t web maxBytes source = .ok data := by
  unfold fetch
  rw [holds.named]
  cases holds with
  | file near found => simp [near, readFile, found, read]
  | body far address answer low high =>
    simp [far, readWeb, address, answer, good_status low high, read]

theorem Holds.refused (holds : Holds t web source content)
    (read : readLimited maxBytes content = none) :
    ∃ e, fetch t web maxBytes source = .error e ∧ e.isTooLarge = true := by
  unfold fetch
  rw [holds.named]
  cases holds with
  | file near found => simp [near, readFile, found, read, FetchError.isTooLarge]
  | body far address answer low high =>
    simp [far, readWeb, address, answer, good_status low high, read, FetchError.isTooLarge]

end

/-- Under every limit but the largest number, a document that is no longer than the limit is read
    as a whole and a longer one is refused, from files and from the web alike. Under the largest
    number nothing is read of any document. -/
theorem limit_exact_below_top (maxBytes : Int64) (content : Bytes) :
    (maxBytes ≠ Int64.maxValue → readLimited maxBytes content =
      if content.length ≤ limit maxBytes then some content else none) ∧
    (maxBytes = Int64.maxValue → readLimited maxBytes content = some []) ∧
    ∀ t web source, Holds t web source content →
      (maxBytes ≠ Int64.maxValue →
        (content.length ≤ limit maxBytes → fetch t web maxBytes source = .ok content) ∧
        (limit maxBytes < content.length →
          ∃ e, fetch t web maxBytes source = .error e ∧ e.isTooLarge = true)) ∧
      (maxBytes = Int64.maxValue → fetch t web maxBytes source = .ok []) := by
  refine ⟨?_, ?_, ?_⟩
  · intro below
    split
    · next fits => exact read_of_le below fits
    · next long => exact read_of_lt below (by omega)
  · rintro rfl
    exact read_top content
  · intro t web source holds
    refine ⟨?_, ?_⟩
    · intro below
      refine ⟨?_, ?_⟩
      · intro fits
        exact holds.fetched (read_of_le below fits)
      · intro long
        exact holds.refused (read_of_lt below long)
    · rintro rfl
      exact holds.fetched (read_top content)

namespace Shelf

def content : Bytes := [0x68, 0x69]

/-- One file with two bytes in the working directory. -/
def tree : FileTree := ⟨["", "home"], [(["", "home", "a"], .file content 0o644)]⟩

/-- An empty web. -/
def silent : Web := fun _ => .response 404 []

theorem holds : Holds tree silent "a" content := by
  have found : tree.find "a" = .ok (.file content 0o644) := by rfl
  exact .file (by decide) found

end Shelf

/-- The file just fits, and is one byte too long. -/
theorem two_bytes_under_limits :
    fetch Shelf.tree Shelf.silent 2 "a" = .ok Shelf.content ∧
    (∃ e, fetch Shelf.tree Shelf.silent 1 "a" = .error e ∧ e.isTooLarge = true) ∧
    readLimited (-5) Shelf.content = some Shelf.content := by
  have two := (limit_exact_below_top 2 Shelf.content).2.2 _ _ _ Shelf.holds
  have one := (limit_exact_below_top 1 Shelf.content).2.2 _ _ _ Shelf.holds
  have default := (limit_exact_below_top (-5) Shelf.content).1
  refine ⟨?_, ?_, ?_⟩
  · exact (two.1 (by decide)).1 (by decide)
  · exact (one.1 (by decide)).2 (by decide)
  · exact (default (by decide)).trans (if_pos (by decide))

/-- Under the largest limit a file is fetched as an empty document. -/
theorem largest_limit_reads_nothing :
    Shelf.content.length ≤ limit Int64.maxValue ∧
    readLimited Int64.maxValue Shelf.content = some [] ∧
    fetch Shelf.tree Shelf.silent Int64.maxValue "a" = .ok [] := by
  refine ⟨by decide, read_top _, ?_⟩
  exact Shelf.holds.fetched (read_top _)

end SchemaForge.Fetch
