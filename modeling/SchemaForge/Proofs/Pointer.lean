import SchemaForge.Pointer
import SchemaForge.Proofs.Numerals

/-!
Written pointers determine their segments. An escaped segment holds no slash, so the slashes of a
pointer are exactly the starts of its segments, and unescaping gives each segment back.
-/
namespace SchemaForge.Pointer

/-- An escaped character is read back, whatever follows it. -/
theorem read_escaped (c : Char) (rest : List Char) :
    unescapeChars (escapeChar c ++ rest) = c :: unescapeChars rest := by
  unfold escapeChar
  split
  · rename_i tilde
    rw [tilde]
    rfl
  · rename_i plain
    split
    · rename_i slash
      rw [slash]
      rfl
    · rw [List.singleton_append, unescapeChars] <;> exact fun _ tilde => absurd tilde plain

theorem escaped_read_back (cs : List Char) : unescapeChars (escapeChars cs) = cs := by
  induction cs with
  | nil => rfl
  | cons c cs ih => rw [escapeChars, List.flatMap_cons, ← escapeChars, read_escaped, ih]

theorem escape_injective {a b : String} (same : escapeChars a.toList = escapeChars b.toList) :
    a = b := by
  have chars := congrArg unescapeChars same
  rw [escaped_read_back, escaped_read_back] at chars
  exact String.toList_injective chars

theorem escaped_without_slash (cs : List Char) : '/' ∉ escapeChars cs := by
  intro member
  obtain ⟨c, _, piece⟩ := List.mem_flatMap.mp member
  unfold escapeChar at piece
  split at piece
  · simp at piece
  · split at piece
    · simp at piece
    · rename_i slash
      exact slash (List.mem_singleton.mp piece).symm

/-- The characters of a pointer after its mark. -/
def suffixChars (segments : List String) : List Char :=
  segments.flatMap fun s => '/' :: escapeChars s.toList

theorem suffix_onto (segments : List String) (start : String) :
    (segments.foldl (fun acc s => acc ++ "/" ++ escape s) start).toList =
      start.toList ++ suffixChars segments := by
  induction segments generalizing start with
  | nil => simp [suffixChars]
  | cons s rest ih =>
    rw [List.foldl_cons, ih]
    simp [suffixChars, escape]

theorem render_toList (segments : List String) :
    (render segments).toList = '#' :: suffixChars segments := by
  simp [render, suffix, suffix_onto]

/-- Up to the next slash stands the first segment. -/
theorem takeWhile_suffix (cs : List Char) (rest : List String) (free : '/' ∉ cs) :
    (cs ++ suffixChars rest).takeWhile (· ≠ '/') = cs := by
  have all : ∀ c ∈ cs, decide (c ≠ '/') = true := by
    intro c member
    have ne : c ≠ '/' := by
      intro eq
      exact free (eq ▸ member)
    simpa using ne
  rw [List.takeWhile_append_of_pos all]
  cases rest <;> simp [suffixChars]

theorem suffixChars_injective {a b : List String} (same : suffixChars a = suffixChars b) :
    a = b := by
  induction a generalizing b with
  | nil =>
    cases b with
    | nil => rfl
    | cons s rest => simp [suffixChars] at same
  | cons s rest ih =>
    cases b with
    | nil => simp [suffixChars] at same
    | cons t others =>
      simp only [suffixChars, List.flatMap_cons, List.cons_append, List.cons.injEq,
        true_and] at same
      have front := congrArg (List.takeWhile (· ≠ '/')) same
      have first : escapeChars s.toList = escapeChars t.toList := by
        rw [← suffixChars, ← suffixChars, takeWhile_suffix _ _ (escaped_without_slash _),
          takeWhile_suffix _ _ (escaped_without_slash _)] at front
        exact front
      rw [first] at same
      have tail := List.append_cancel_left same
      rw [escape_injective first, ih tail]

theorem render_injective {a b : List String} (same : render a = render b) : a = b := by
  have chars := congrArg String.toList same
  rw [render_toList, render_toList] at chars
  exact suffixChars_injective (List.cons.inj chars).2

/-- A reference that is spelled like a pointer has the pointer's segments. -/
theorem split_of_normal {path : String} {segments : List String}
    (spelled : normal path = render segments) : split path = segments :=
  render_injective spelled

/-- Split at its slashes, a pointer falls into its escaped segments. -/
theorem splitChars_suffix {cs : List Char} (free : '/' ∉ cs) (rest : List String) :
    Text.splitChars '/' (cs ++ suffixChars rest) =
      cs :: rest.map fun s => escapeChars s.toList := by
  induction rest generalizing cs with
  | nil =>
    rw [suffixChars, List.flatMap_nil, List.append_nil]
    exact Text.splitChars_plain free
  | cons s rest ih =>
    rw [suffixChars, List.flatMap_cons, List.cons_append, ← suffixChars,
      Text.splitChars_append free, ih (escaped_without_slash _), List.map_cons]

/-- A written pointer is read back, unless all that it has is one segment without a text. -/
theorem split_render {segments : List String} (some_ : segments ≠ [""]) :
    split (render segments) = segments := by
  have trimmed : Text.trimStart ['#'] ('#' :: suffixChars segments) = suffixChars segments := rfl
  rw [split, render_toList, trimmed]
  cases segments with
  | nil => rfl
  | cons s rest =>
    have body : Text.trimStart ['/'] (suffixChars (s :: rest)) =
        escapeChars s.toList ++ suffixChars rest := rfl
    have present : (escapeChars s.toList ++ suffixChars rest).isEmpty = false := by
      rw [Bool.eq_false_iff, ne_eq, List.isEmpty_iff, List.append_eq_nil_iff]
      rintro ⟨first, others⟩
      have empty : s = "" := escape_injective first
      have alone : rest = [] := suffixChars_injective others
      exact some_ (by rw [empty, alone])
    have back : ∀ s : String, String.ofList (unescapeChars (escapeChars s.toList)) = s := by
      intro s
      rw [escaped_read_back, String.ofList_toList]
    simp only [body, present, Bool.false_eq_true, if_false]
    rw [splitChars_suffix (escaped_without_slash _), List.map_cons, List.map_map, back]
    exact congrArg _ (List.map_id'' back rest)

theorem name_of_split {path last : String} {base : List String}
    (segments : split path = base ++ [last]) : name path = last := by
  simp [name, segments]

end SchemaForge.Pointer
