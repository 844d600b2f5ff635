import SchemaForge.Json.Reader
import SchemaForge.Proofs.Encoding
import SchemaForge.Proofs.Grammar

/-!
What the two readers of JSON accept. `Loose` is the grammar of their lexemes: any closing mark ends
any container unless a separator stands right before it, and separators are not asked for. The
descending reader and the one with a stack agree on every text, and they accept exactly the texts
that end after the lexemes of one loose value.
-/
namespace SchemaForge.Json

mutual

inductive Loose : List Lexeme → Json → Prop
  | null (separated : Bool) : Loose [⟨separated, .null⟩] .null
  | bool (separated b : Bool) : Loose [⟨separated, .bool b⟩] (.bool b)
  | number (separated : Bool) (text : String) : Loose [⟨separated, .number text⟩] (.num text)
  | string (separated : Bool) (text : String) : Loose [⟨separated, .string text⟩] (.str text)
  | array {separated : Bool} {body : List Lexeme} {items : List Json} {closer : Token}
      (elements : LooseItems body items) (closes : closer.isCloser = true) :
      Loose (⟨separated, .openArray⟩ :: (body ++ [⟨false, closer⟩])) (.arr items)
  | object {separated : Bool} {body : List Lexeme} {members : List (String × Json)} {closer : Token}
      (entries : LooseMembers body members) (closes : closer.isCloser = true) :
      Loose (⟨separated, .openObject⟩ :: (body ++ [⟨false, closer⟩]))
        (.obj (Members.settled members))

inductive LooseItems : List Lexeme → List Json → Prop
  | nil : LooseItems [] []
  | cons {used more : List Lexeme} {v : Json} {items : List Json} (value : Loose used v)
      (rest : LooseItems more items) : LooseItems (used ++ more) (v :: items)

inductive LooseMembers : List Lexeme → List (String × Json) → Prop
  | nil : LooseMembers [] []
  | cons {separated : Bool} {key : String} {used more : List Lexeme} {v : Json}
      {members : List (String × Json)} (value : Loose used v) (rest : LooseMembers more members) :
      LooseMembers (⟨separated, .string key⟩ :: (used ++ more)) ((key, v) :: members)

end

theorem Loose.ne_nil {used : List Lexeme} {v : Json} (loose : Loose used v) : used ≠ [] := by
  cases loose <;> simp

namespace Reader

/-- What the descending reader takes for a value, an array or an object is loose. -/
theorem taken_loose (finish : Finish) (fuel : Nat) :
    (∀ items v rest, value finish fuel items = .ok (v, rest) →
      ∃ used, items = used ++ rest ∧ Loose used v) ∧
    (∀ known items v rest, array finish fuel known items = .ok (v, rest) →
      ∃ body closer more, items = body ++ ⟨false, closer⟩ :: rest ∧ closer.isCloser = true ∧
        LooseItems body more ∧ v = .arr (known.reverse ++ more)) ∧
    (∀ known items v rest, object finish fuel known items = .ok (v, rest) →
      ∃ body closer more, items = body ++ ⟨false, closer⟩ :: rest ∧ closer.isCloser = true ∧
        LooseMembers body more ∧
        v = .obj (more.foldl (fun known member => Members.set member.1 member.2 known) known)) := by
  induction fuel with
  | zero => simp [value, array, object]
  | succ fuel ih =>
    obtain ⟨ihValue, ihArray, ihObject⟩ := ih
    refine ⟨fun items v rest taken => ?_, fun known items v rest taken => ?_,
      fun known items v rest taken => ?_⟩
    · rcases items with _ | ⟨⟨separated, token⟩, more⟩
      · simp [value] at taken
      cases token with
      | null =>
        obtain ⟨rfl, rfl⟩ : .null = v ∧ more = rest := by simpa [value] using taken
        exact ⟨_, rfl, .null separated⟩
      | bool b =>
        obtain ⟨rfl, rfl⟩ : .bool b = v ∧ more = rest := by simpa [value] using taken
        exact ⟨_, rfl, .bool separated b⟩
      | number text =>
        obtain ⟨rfl, rfl⟩ : .num text = v ∧ more = rest := by simpa [value] using taken
        exact ⟨_, rfl, .number separated text⟩
      | string text =>
        obtain ⟨rfl, rfl⟩ : .str text = v ∧ more = rest := by simpa [value] using taken
        exact ⟨_, rfl, .string separated text⟩
      | openArray =>
        obtain ⟨body, closer, elements, rfl, closes, inside, rfl⟩ := ihArray [] more v rest taken
        exact ⟨⟨separated, .openArray⟩ :: (body ++ [⟨false, closer⟩]), by simp,
          .array inside closes⟩
      | openObject =>
        obtain ⟨body, closer, members, rfl, closes, inside, rfl⟩ := ihObject [] more v rest taken
        rw [Members.foldl_set]
        exact ⟨⟨separated, .openObject⟩ :: (body ++ [⟨false, closer⟩]), by simp,
          .object inside closes⟩
      | closeArray => simp [value] at taken
      | closeObject => simp [value] at taken
    · rcases items with _ | ⟨⟨separated, token⟩, more⟩
      · cases finish with
        | ended separated => cases separated <;> simp [array] at taken
        | failed e => simp [array] at taken
      rw [array] at taken
      split at taken
      · next ends =>
        obtain ⟨closes, rfl⟩ : token.isCloser = true ∧ separated = false := by simpa using ends
        obtain ⟨rfl, rfl⟩ := Prod.mk.inj (Except.ok.inj taken)
        exact ⟨[], token, [], rfl, closes, .nil, by simp⟩
      · split at taken
        · cases taken
        next item left read =>
        obtain ⟨used, same, first⟩ := ihValue _ item left read
        obtain ⟨body, closer, elements, rfl, closes, inside, rfl⟩ := ihArray _ left v rest taken
        exact ⟨used ++ body, closer, item :: elements, by simp [same], closes, .cons first inside,
          by simp⟩
    · rcases items with _ | ⟨⟨separated, token⟩, more⟩
      · cases finish <;> simp [object] at taken
      rw [object] at taken
      split at taken
      · next ends =>
        obtain ⟨closes, rfl⟩ : token.isCloser = true ∧ separated = false := by simpa using ends
        obtain ⟨rfl, rfl⟩ := Prod.mk.inj (Except.ok.inj taken)
        exact ⟨[], token, [], rfl, closes, .nil, rfl⟩
      · split at taken
        · next key named =>
          cases named
          split at taken
          · cases taken
          next item left read =>
          obtain ⟨used, rfl, first⟩ := ihValue _ item left read
          obtain ⟨body, closer, members, rfl, closes, inside, rfl⟩ := ihObject _ left v rest taken
          exact ⟨⟨separated, .string key⟩ :: (used ++ body), closer, (key, item) :: members,
            by simp, closes, .cons first inside, rfl⟩
        · cases taken

/-- A value takes a lexeme at least. -/
theorem value_shorter {finish : Finish} {fuel : Nat} {items rest : List Lexeme} {v : Json}
    (taken : value finish fuel items = .ok (v, rest)) : rest.length < items.length := by
  obtain ⟨used, rfl, loose⟩ := (taken_loose finish fuel).1 items v rest taken
  have some_ := List.length_pos_of_ne_nil loose.ne_nil
  simp only [List.length_append]
  omega

end Reader

namespace Loader

/-- The rest of a text from some state on. -/
def resume (finish : Finish) (state : State) (items : List Lexeme) : Except ReadError Json :=
  finished (items.foldl step state) finish

theorem resume_cons (finish : Finish) (state : State) (lexeme : Lexeme) (rest : List Lexeme) :
    resume finish state (lexeme :: rest) = resume finish (step state lexeme) rest := rfl

theorem resume_failed (finish : Finish) (e : ReadError) (items : List Lexeme) :
    resume finish (.failed e) items = .error e := by
  induction items with
  | nil => rfl
  | cons lexeme items ih => exact ih

/-- Goes on below an open container with what the other reader took for it. -/
def settle (finish : Finish) (stack : List Frame) : Reader.Outcome → Except ReadError Json
  | .ok (v, rest) => resume finish (deliver v stack) rest
  | .error e => .error e

/-- The stack reader does in one run what the descending reader does for each of its containers. -/
theorem resume_eq_settle (finish : Finish) (fuel : Nat) :
    (∀ stack lexeme rest, 2 * rest.length + 3 ≤ fuel →
      resume finish (acceptValue stack lexeme.token) rest =
        settle finish stack (Reader.value finish fuel (lexeme :: rest))) ∧
    (∀ stack known items, 2 * items.length + 2 ≤ fuel →
      resume finish (.reading (.array known :: stack)) items =
        settle finish stack (Reader.array finish fuel known items)) ∧
    (∀ stack known items, 2 * items.length + 2 ≤ fuel →
      resume finish (.reading (.object known :: stack)) items =
        settle finish stack (Reader.object finish fuel known items)) := by
  induction fuel with
  | zero => exact ⟨by omega, by omega, by omega⟩
  | succ fuel ih =>
    obtain ⟨ihValue, ihArray, ihObject⟩ := ih
    refine ⟨fun stack lexeme rest enough => ?_, fun stack known items enough => ?_,
      fun stack known items enough => ?_⟩
    · obtain ⟨separated, token⟩ := lexeme
      cases token with
      | openArray => exact ihArray stack [] rest (by omega)
      | openObject => exact ihObject stack [] rest (by omega)
      | closeArray => exact resume_failed finish _ rest
      | closeObject => exact resume_failed finish _ rest
      | _ => rfl
    · rcases items with _ | ⟨lexeme, rest⟩
      · rcases finish with ⟨_ | _⟩ | e <;> rfl
      simp only [List.length_cons] at enough
      rw [resume_cons, step, Reader.array]
      by_cases ends : (lexeme.token.isCloser && !lexeme.separated) = true
      · rw [if_pos ends, if_pos ends, settle]
      · rw [if_neg ends, if_neg ends, ihValue _ lexeme rest (by omega)]
        cases taken : Reader.value finish fuel (lexeme :: rest) with
        | error e => rfl
        | ok outcome =>
          obtain ⟨item, left⟩ := outcome
          have shorter := Reader.value_shorter taken
          simp only [List.length_cons] at shorter
          exact ihArray stack (item :: known) left (by omega)
    · rcases items with _ | ⟨lexeme, rest⟩
      · cases finish <;> rfl
      simp only [List.length_cons] at enough
      rw [resume_cons, step, Reader.object]
      by_cases ends : (lexeme.token.isCloser && !lexeme.separated) = true
      · rw [if_pos ends, if_pos ends, settle]
      rw [if_neg ends, if_neg ends]
      obtain ⟨separated, token⟩ := lexeme
      cases token with
      | string key =>
        -- the key's frame waits for a value, which is read as the descending reader reads it
        have value : resume finish (.reading (.member known key :: stack)) rest =
            settle finish (.member known key :: stack) (Reader.value finish fuel rest) := by
          rcases rest with _ | ⟨next, rest⟩
          · obtain ⟨fuel, rfl⟩ := Nat.exists_eq_add_one_of_ne_zero (show fuel ≠ 0 by omega)
            cases finish <;> rfl
          · simp only [List.length_cons] at enough
            exact ihValue _ next rest (by omega)
        simp only [value]
        cases taken : Reader.value finish fuel rest with
        | error e => rfl
        | ok outcome =>
          obtain ⟨item, left⟩ := outcome
          have shorter := Reader.value_shorter taken
          exact ihObject stack (Members.set key item known) left (by omega)
      | _ => exact resume_failed finish _ rest

end Loader

/-- The two readers are the same function. -/
theorem parse_eq_load (text : Bytes) : parse text = load text := by
  unfold parse load
  generalize lexemes text = source
  obtain ⟨items, finish⟩ := source
  change _ = Loader.resume finish (.reading []) items
  rcases items with _ | ⟨lexeme, rest⟩
  · cases finish <;> rfl
  have value : Loader.resume finish (.reading []) (lexeme :: rest) =
      Loader.settle finish [] (Reader.value finish (3 * (lexeme :: rest).length + 3)
        (lexeme :: rest)) := by
    refine (Loader.resume_eq_settle finish _).1 [] lexeme rest ?_
    simp only [List.length_cons]
    omega
  rw [value]
  dsimp only
  generalize Reader.value finish (3 * (lexeme :: rest).length + 3) (lexeme :: rest) = outcome
  rcases outcome with e | ⟨v, _ | ⟨next, more⟩⟩
  · rfl
  · cases finish <;> rfl
  · exact (Loader.resume_failed finish _ more).symm

namespace Loader

mutual

/-- The lexemes of a loose value hand that value to the container below. -/
theorem value_delivered {used : List Lexeme} {v : Json} (loose : Loose used v) :
    ∃ first rest, used = first :: rest ∧ first.token.isCloser = false ∧
      ∀ stack, rest.foldl step (acceptValue stack first.token) = deliver v stack := by
  cases loose with
  | array elements closes =>
    refine ⟨_, _, rfl, rfl, fun stack => ?_⟩
    rw [List.foldl_concat, acceptValue, items_collected elements]
    simp [step, closes]
  | object entries closes =>
    refine ⟨_, _, rfl, rfl, fun stack => ?_⟩
    rw [List.foldl_concat, acceptValue, members_collected entries, Members.foldl_set]
    simp [step, closes]
  | _ => exact ⟨_, [], rfl, rfl, fun stack => rfl⟩
termination_by 2 * used.length
decreasing_by all_goals simp only [List.length_append, List.length_cons]; omega

theorem items_collected {body : List Lexeme} {items : List Json} (loose : LooseItems body items)
    (known : List Json) (stack : List Frame) :
    body.foldl step (.reading (.array known :: stack)) =
      .reading (.array (items.reverse ++ known) :: stack) := by
  cases loose with
  | nil => rfl
  | cons value rest =>
    have taken := List.length_pos_of_ne_nil value.ne_nil
    obtain ⟨first, more, rfl, opens, delivered⟩ := value_delivered value
    rw [List.cons_append, List.foldl_cons, step, opens, Bool.false_and, if_neg Bool.false_ne_true,
      List.foldl_append, delivered, deliver, items_collected rest]
    simp
termination_by 2 * body.length + 1
decreasing_by all_goals simp only [List.length_append, List.length_cons] at *; omega

theorem members_collected {body : List Lexeme} {members : List (String × Json)}
    (loose : LooseMembers body members) (known : List (String × Json)) (stack : List Frame) :
    body.foldl step (.reading (.object known :: stack)) =
      .reading (.object (members.foldl
        (fun known member => Members.set member.1 member.2 known) known) :: stack) := by
  cases loose with
  | nil => rfl
  | cons value rest =>
    obtain ⟨first, more, rfl, opens, delivered⟩ := value_delivered value
    -- the key's frame takes the value, so two lexemes are past before the value's own run
    change List.foldl step (acceptValue (.member known _ :: stack) first.token) (more ++ _) = _
    rw [List.foldl_append, delivered, deliver, members_collected rest]
    rfl
termination_by 2 * body.length + 1
decreasing_by all_goals simp only [List.length_append, List.length_cons]; omega

end

end Loader

/-- Both readers accept the texts that end after the lexemes of one loose value, and no others. -/
theorem load_ok_iff {text : Bytes} {v : Json} :
    load text = .ok v ↔
      ∃ items separated, lexemes text = ⟨items, .ended separated⟩ ∧ Loose items v := by
  constructor
  · intro loaded
    rw [← parse_eq_load, parse] at loaded
    generalize lexemes text = source at loaded ⊢
    obtain ⟨items, finish⟩ := source
    dsimp only at loaded
    split at loaded
    · cases loaded
    · next taken =>
      obtain ⟨used, rfl, loose⟩ := (Reader.taken_loose _ _).1 _ _ _ taken
      cases finish with
      | ended separated =>
        cases loaded
        exact ⟨_, separated, by simp, loose⟩
      | failed e => cases loaded
    · cases loaded
  · rintro ⟨items, separated, source, loose⟩
    obtain ⟨first, rest, rfl, -, delivered⟩ := Loader.value_delivered loose
    rw [load, source, List.foldl_cons]
    change Loader.finished (List.foldl Loader.step (Loader.acceptValue [] first.token) rest) _ = _
    rw [delivered]
    rfl

/-- What the readers look at: of a closing mark whether a separator stands before it, of any other
    lexeme its token. -/
def Lexeme.seen (lexeme : Lexeme) : Lexeme :=
  if lexeme.token.isCloser then ⟨lexeme.separated, .closeArray⟩ else ⟨false, lexeme.token⟩

theorem Lexeme.seen_cases {lexeme other : Lexeme} (same : lexeme.seen = other.seen) :
    (lexeme.token.isCloser = true ∧ other.token.isCloser = true ∧
      lexeme.separated = other.separated) ∨
    (lexeme.token.isCloser = false ∧ lexeme.token = other.token) := by
  obtain ⟨separated, token⟩ := lexeme
  obtain ⟨separated', token'⟩ := other
  cases closes : token.isCloser <;> cases closes' : token'.isCloser <;>
    simp only [seen, closes, closes', Bool.false_eq_true, if_true, if_false, mk.injEq] at same
  · exact .inr ⟨rfl, same.2⟩
  · rw [same.2] at closes
    cases closes
  · rw [← same.2] at closes'
    cases closes'
  · exact .inl ⟨rfl, rfl, same.1⟩

namespace Loader

def State.isFailed : State → Bool
  | .failed _ => true
  | _ => false

theorem acceptValue_closer {token : Token} (closes : token.isCloser = true) (stack : List Frame) :
    (acceptValue stack token).isFailed = true := by
  cases token <;> first | rfl | cases closes

/-- Lexemes that look the same lead to the same state, or both to a failure. -/
theorem step_seen {lexeme other : Lexeme} (same : lexeme.seen = other.seen) (state : State) :
    step state lexeme = step state other ∨
      (step state lexeme).isFailed = true ∧ (step state other).isFailed = true := by
  rcases Lexeme.seen_cases same with ⟨closes, closes', separated⟩ | ⟨opens, token⟩
  · cases state with
    | failed e => exact .inl rfl
    | complete v => exact .inr ⟨rfl, rfl⟩
    | reading stack =>
      rcases stack with _ | ⟨items | members | _, stack⟩
      · exact .inr ⟨acceptValue_closer closes _, acceptValue_closer closes' _⟩
      · cases before : other.separated
        · exact .inl (by simp [step, closes, closes', separated, before])
        · simp only [step, separated, before, Bool.not_true, Bool.and_false, Bool.false_eq_true,
            if_false]
          exact .inr ⟨acceptValue_closer closes _, acceptValue_closer closes' _⟩
      · cases before : other.separated
        · exact .inl (by simp [step, closes, closes', separated, before])
        · simp only [step, separated, before, Bool.not_true, Bool.and_false, Bool.false_eq_true,
            if_false]
          -- a closing mark is no key
          refine .inr ⟨?_, ?_⟩
          · cases kind : lexeme.token <;> simp_all [Token.isCloser, State.isFailed]
          · cases kind : other.token <;> simp_all [Token.isCloser, State.isFailed]
      · exact .inr ⟨acceptValue_closer closes _, acceptValue_closer closes' _⟩
  · obtain ⟨separated, kind⟩ := lexeme
    obtain ⟨separated', kind'⟩ := other
    obtain rfl : kind = kind' := token
    refine .inl ?_
    rcases state with ⟨_ | ⟨_ | _ | _, stack⟩⟩ | v | e
    all_goals first | rfl | simp only [step, opens, Bool.false_and]

theorem failed_stays (items : List Lexeme) {state : State} (failed : state.isFailed = true) :
    (items.foldl step state).isFailed = true := by
  induction items generalizing state with
  | nil => exact failed
  | cons lexeme items ih =>
    refine ih ?_
    cases state with
    | failed e => rfl
    | _ => cases failed

theorem foldl_seen {items others : List Lexeme}
    (same : items.map Lexeme.seen = others.map Lexeme.seen) (state : State) :
    items.foldl step state = others.foldl step state ∨
      (items.foldl step state).isFailed = true ∧ (others.foldl step state).isFailed = true := by
  induction items generalizing others state with
  | nil =>
    obtain rfl : others = [] := by simpa using same
    exact .inl rfl
  | cons lexeme items ih =>
    obtain _ | ⟨other, others⟩ := others
    · simp at same
    obtain ⟨first, rest⟩ := List.cons.inj same
    rw [List.foldl_cons, List.foldl_cons]
    rcases step_seen first state with equal | ⟨failed, failed'⟩
    · rw [equal]
      exact ih rest _
    · exact .inr ⟨failed_stays items failed, failed_stays others failed'⟩

theorem finished_ok_iff {state : State} {finish : Finish} {v : Json} :
    finished state finish = .ok v ↔
      state = .complete v ∧ ∃ separated, finish = .ended separated := by
  rcases state with ⟨_ | ⟨_ | _ | _, stack⟩⟩ | v | e <;> rcases finish with ⟨_ | _⟩ | e <;>
    simp [finished]

end Loader

/-- A text is accepted by both readers or by none, and it is accepted exactly if it ends after the
    lexemes of one loose value. So a text that differs from an accepted one in the kinds of its
    closing marks and in separators elsewhere than before them is accepted with the same value. -/
theorem accepted_iff_loose (text : Bytes) (v : Json) :
    (parse text = .ok v ↔ load text = .ok v) ∧
    (load text = .ok v ↔
      ∃ items separated, lexemes text = ⟨items, .ended separated⟩ ∧ Loose items v) ∧
    (load text = .ok v → ∀ other items separated, lexemes other = ⟨items, .ended separated⟩ →
      items.map Lexeme.seen = (lexemes text).items.map Lexeme.seen → load other = .ok v) := by
  refine ⟨by rw [parse_eq_load], load_ok_iff, fun loaded other items separated source same => ?_⟩
  obtain ⟨complete, -⟩ := Loader.finished_ok_iff.mp loaded
  rw [load, source]
  refine Loader.finished_ok_iff.mpr ⟨?_, separated, rfl⟩
  rcases Loader.foldl_seen same (.reading []) with equal | ⟨-, failed⟩
  · exact equal.trans complete
  · rw [complete] at failed
    cases failed

/-- An array that a brace closes is accepted, and the grammar does not derive it. -/
theorem brace_closes_array :
    (parse [91, 49, 125] = .ok (.arr [.num "1"]) ∧ load [91, 49, 125] = .ok (.arr [.num "1"])) ∧
      ¬ ∃ cs v, Utf8.encodeChars cs = [91, 49, 125] ∧ Grammar.WellFormed cs v := by
  refine ⟨⟨by rfl, by rfl⟩, ?_⟩
  rintro ⟨cs, v, bytes, text⟩
  obtain rfl : cs = ['[', '1', '\x7d'] := Utf8.encodeChars_injective (bytes.trans (by decide))
  have value := text.value (by rintro c ⟨⟩; rfl) (by rintro c ⟨⟩; rfl)
  exact absurd (value.closed.1 rfl) (by decide)

/-- On every text, well-formed or not, the two readers give the same tree, which is then the one
    that the lexemes of the text write, or they stop with the same error. -/
theorem readers_agree (text : Bytes) :
    (∃ v items separated, parse text = .ok v ∧ load text = .ok v ∧
      lexemes text = ⟨items, .ended separated⟩ ∧ Loose items v) ∨
    ∃ e, parse text = .error e ∧ load text = .error e ∧
      ∀ v items separated, lexemes text = ⟨items, .ended separated⟩ → ¬ Loose items v := by
  rw [parse_eq_load]
  cases loaded : load text with
  | ok v =>
    obtain ⟨items, separated, source, loose⟩ := load_ok_iff.mp loaded
    exact .inl ⟨v, items, separated, rfl, rfl, source, loose⟩
  | error e =>
    refine .inr ⟨e, rfl, rfl, fun v items separated source loose => ?_⟩
    rw [load_ok_iff.mpr ⟨items, separated, source, loose⟩] at loaded
    cases loaded

end SchemaForge.Json
