import AdLedger.Proofs.Json.Gaps

/-!
# Values put into documents

The tokens of a document are put together from those of its values (`Forms`, `ItemsEnd`,
`MembersEnd`): what is open beneath a value is left alone until the value is complete
(`exists_value_end`). So the tokens of one value in an array or an object can be replaced by those
of another one, and the document that they form differs by this value only
(`Context.exists_tokens`). A text can so be replaced in the gap where it stands
(`Context.exists_gap`).
-/

namespace AdLedger.Json

variable {inner base stack : List Open} {e : Expected} {t : Token} {tokens : List Token}
  {r : Reading} {v j : Json}

/-! ## Values among tokens -/

/-- The reading is inside a value that is not complete: an array that may still be empty has been
opened in it. -/
def Amid (inner : List Open) (e : Expected) : Prop :=
  (e = .valueOrEnd → inner ≠ []) ∧ ¬ (inner = [] ∧ ∃ v, e = .after v)

/-- What a step does with what is open, whatever is open beneath. -/
def Moves (inner : List Open) (e : Expected) (t : Token) (inner' : List Open) (e' : Expected) :
    Prop :=
  (∀ base, Reading.step ⟨inner ++ base, e⟩ t = some ⟨inner' ++ base, e'⟩) ∧
    (e' = .valueOrEnd → inner' ≠ [])

theorem moves_value (h : Reading.value (inner ++ base) t = some r) :
    ∃ inner' e', Moves inner .value t inner' e' := by
  cases t with
  | openArray => exact ⟨.array [] :: inner, .valueOrEnd, fun _ => rfl, fun _ => by simp⟩
  | openObject => exact ⟨inner, .nameOrEnd, fun _ => rfl, by simp⟩
  | text written => exact ⟨inner, .after (.text written), fun _ => rfl, by simp⟩
  | atom value => exact ⟨inner, .after value, fun _ => rfl, by simp⟩
  | _ => cases h

/-- Inside a value, a step neither needs nor changes what is open beneath. -/
theorem exists_moves (ha : Amid inner e) (h : Reading.step ⟨inner ++ base, e⟩ t = some r) :
    ∃ inner' e', Moves inner e t inner' e' := by
  cases e with
  | value => exact moves_value h
  | valueOrEnd =>
    obtain ⟨o, inner, rfl⟩ := List.exists_cons_of_ne_nil (ha.1 rfl)
    cases t with
    | closeArray =>
      cases o with
      | array items => exact ⟨inner, .after (.array []), fun _ => rfl, by simp⟩
      | object members name => cases h
    | openArray | openObject | text | atom => exact moves_value h
    | _ => cases h
  | name members =>
    cases t with
    | text name => exact ⟨inner, .colon members name, fun _ => rfl, by simp⟩
    | _ => cases h
  | nameOrEnd =>
    cases t with
    | text name => exact ⟨inner, .colon [] name, fun _ => rfl, by simp⟩
    | closeObject => exact ⟨inner, .after (.object []), fun _ => rfl, by simp⟩
    | _ => cases h
  | colon members name =>
    cases t with
    | colon => exact ⟨.object members name :: inner, .value, fun _ => rfl, by simp⟩
    | _ => cases h
  | after v =>
    cases inner with
    | nil => exact absurd ⟨rfl, v, rfl⟩ ha.2
    | cons o inner =>
      cases o with
      | array items =>
        cases t with
        | comma => exact ⟨.array (v :: items) :: inner, .value, fun _ => rfl, by simp⟩
        | closeArray => exact ⟨inner, .after (.array (v :: items).reverse), fun _ => rfl, by simp⟩
        | _ => cases h
      | object members name =>
        cases t with
        | comma => exact ⟨inner, .name ((name, v) :: members), fun _ => rfl, by simp⟩
        | closeObject =>
          exact ⟨inner, .after (.object ((name, v) :: members).reverse), fun _ => rfl, by simp⟩
        | _ => cases h

/-- A document is read to its end. -/
def Finishes (r : Reading) (tokens : List Token) (j : Json) : Prop :=
  readFrom r tokens = some ⟨[], .after j⟩

theorem Finishes.exists_step (h : Finishes r (t :: tokens) j) :
    ∃ r', r.step t = some r' ∧ Finishes r' tokens j :=
  Option.bind_eq_some_iff.1 h

theorem Finishes.of_readFrom {first rest : List Token} {r' : Reading}
    (h : Finishes r (first ++ rest) j) (hf : readFrom r first = some r') : Finishes r' rest j := by
  rwa [Finishes, readFrom_append, hf, Option.bind_some] at h

/-- Where a document is read to its end, a value that has been begun is complete before anything is
done with what is open beneath it. By induction on the tokens. -/
theorem exists_value_end (h : Finishes ⟨inner ++ base, e⟩ tokens j) (hb : base ≠ [])
    (he : e = .valueOrEnd → inner ≠ []) : ∃ first rest v, tokens = first ++ rest ∧
      ∀ base', readFrom ⟨inner ++ base', e⟩ first = some ⟨base', .after v⟩ := by
  induction tokens generalizing inner e with
  | nil =>
    have hstack := congrArg Reading.stack (Option.some.inj h)
    exact absurd (List.append_eq_nil_iff.1 hstack).2 hb
  | cons t tokens ih =>
    by_cases hdone : inner = [] ∧ ∃ v, e = .after v
    · obtain ⟨rfl, v, rfl⟩ := hdone
      exact ⟨[], t :: tokens, v, rfl, fun _ => rfl⟩
    · obtain ⟨r, hstep, hrest⟩ := h.exists_step
      obtain ⟨inner', e', hmoves, he'⟩ := exists_moves ⟨he, hdone⟩ hstep
      obtain rfl := Option.some.inj (hstep.symm.trans (hmoves base))
      obtain ⟨first, rest, v, rfl, hfirst⟩ := ih hrest he'
      refine ⟨t :: first, rest, v, rfl, fun base' => ?_⟩
      rw [readFrom_cons, hmoves, Option.bind_some, hfirst]

/-- Tokens that are read as a value, whatever is open. -/
def Forms (tokens : List Token) (v : Json) : Prop :=
  ∀ base, readFrom ⟨base, .value⟩ tokens = some ⟨base, .after v⟩

theorem exists_value (h : Finishes ⟨base, .value⟩ tokens j) (hb : base ≠ []) :
    ∃ first rest v, tokens = first ++ rest ∧ Forms first v := by
  have h' : Finishes ⟨[] ++ base, .value⟩ tokens j := h
  exact exists_value_end h' hb (by simp)

/-- Where a name is expected, a member begins with one. -/
theorem exists_member {members : List (List Char × Json)}
    (h : Finishes ⟨base, .name members⟩ tokens j) : ∃ name rest,
      tokens = .text name :: .colon :: rest ∧
      Finishes ⟨.object members name :: base, .value⟩ rest j := by
  cases tokens with
  | nil => cases h
  | cons t tokens =>
    obtain ⟨r, hstep, hrest⟩ := h.exists_step
    cases t with
    | text name =>
      obtain rfl := Option.some.inj hstep
      cases tokens with
      | nil => cases hrest
      | cons t tokens =>
        obtain ⟨r, hstep, hrest⟩ := hrest.exists_step
        cases t with
        | colon =>
          obtain rfl := Option.some.inj hstep
          exact ⟨name, tokens, rfl, hrest⟩
        | _ => cases hstep
    | _ => cases hstep

/-- The tokens after the first value of an array: more values, each after a comma, and the end. -/
inductive ItemsEnd : List Token → List Json → Prop where
  | close : ItemsEnd [.closeArray] []
  | comma {first last : List Token} {v : Json} {more : List Json} (value : Forms first v)
      (rest : ItemsEnd last more) : ItemsEnd (.comma :: (first ++ last)) (v :: more)

/-- The tokens after the first member of an object: more members, and the end. -/
inductive MembersEnd : List Token → List (List Char × Json) → Prop where
  | close : MembersEnd [.closeObject] []
  | comma {first last : List Token} {name : List Char} {v : Json}
      {more : List (List Char × Json)} (value : Forms first v) (rest : MembersEnd last more) :
    MembersEnd (.comma :: .text name :: .colon :: (first ++ last)) ((name, v) :: more)

theorem ItemsEnd.readFrom {more : List Json} (h : ItemsEnd tokens more) (items : List Json)
    (stack : List Open) (v : Json) :
    readFrom ⟨.array items :: stack, .after v⟩ tokens =
      some ⟨stack, .after (.array (items.reverse ++ v :: more))⟩ := by
  induction h generalizing items v with
  | close =>
    rw [← List.reverse_cons]
    rfl
  | @comma first last u more value rest ih =>
    have hrest := ih (v :: items) u
    rw [List.reverse_cons, List.append_assoc] at hrest
    refine (readFrom_append _ first last).trans ?_
    exact (congrArg (Option.bind · _) (value _)).trans hrest

theorem MembersEnd.readFrom {more : List (List Char × Json)} (h : MembersEnd tokens more)
    (members : List (List Char × Json)) (name : List Char) (stack : List Open) (v : Json) :
    readFrom ⟨.object members name :: stack, .after v⟩ tokens =
      some ⟨stack, .after (.object (members.reverse ++ (name, v) :: more))⟩ := by
  induction h generalizing members name v with
  | close =>
    rw [← List.reverse_cons]
    rfl
  | @comma first last other u more value rest ih =>
    have hrest := ih ((name, v) :: members) other u
    rw [List.reverse_cons, List.append_assoc] at hrest
    refine (readFrom_append _ first last).trans ?_
    exact (congrArg (Option.bind · _) (value _)).trans hrest

/-- An array that is open after a value is closed where the document is read to its end. By
induction on the tokens, from one comma to the next. -/
theorem exists_itemsEnd {items : List Json}
    (h : Finishes ⟨.array items :: stack, .after v⟩ tokens j) :
    ∃ first rest more, tokens = first ++ rest ∧ ItemsEnd first more := by
  induction hn : tokens.length using Nat.strong_induction_on generalizing tokens items v with
  | _ n ih =>
    cases tokens with
    | nil => cases h
    | cons t tokens =>
      obtain ⟨r, hstep, hrest⟩ := h.exists_step
      cases t with
      | closeArray => exact ⟨[.closeArray], tokens, [], rfl, .close⟩
      | comma =>
        obtain rfl := Option.some.inj hstep
        obtain ⟨first, rest, u, rfl, hfirst⟩ := exists_value hrest (by simp)
        obtain ⟨last, rest, more, rfl, hlast⟩ := ih rest.length (by simp at hn; omega)
          (hrest.of_readFrom (hfirst _)) rfl
        exact ⟨.comma :: (first ++ last), rest, u :: more, by simp, .comma hfirst hlast⟩
      | _ => cases hstep

theorem exists_membersEnd {members : List (List Char × Json)} {name : List Char}
    (h : Finishes ⟨.object members name :: stack, .after v⟩ tokens j) :
    ∃ first rest more, tokens = first ++ rest ∧ MembersEnd first more := by
  induction hn : tokens.length using Nat.strong_induction_on generalizing tokens members name v with
  | _ n ih =>
    cases tokens with
    | nil => cases h
    | cons t tokens =>
      obtain ⟨r, hstep, hrest⟩ := h.exists_step
      cases t with
      | closeObject => exact ⟨[.closeObject], tokens, [], rfl, .close⟩
      | comma =>
        obtain rfl := Option.some.inj hstep
        obtain ⟨other, tokens, rfl, hnext⟩ := exists_member hrest
        obtain ⟨first, rest, u, rfl, hfirst⟩ := exists_value hnext (by simp)
        obtain ⟨last, rest, more, rfl, hlast⟩ := ih rest.length (by simp at hn; omega)
          (hnext.of_readFrom (hfirst _)) rfl
        exact ⟨.comma :: .text other :: .colon :: (first ++ last), rest, (other, u) :: more,
          by simp, .comma hfirst hlast⟩
      | _ => cases hstep

/-! ## Documents among tokens -/

/-- How the tokens of a document are grouped by its values. -/
inductive Grouped : List Token → Json → Prop where
  | text (written : List Char) : Grouped [.text written] (.text written)
  | atom (v : Json) : Grouped [.atom v] v
  | emptyArray : Grouped [.openArray, .closeArray] (.array [])
  | array {first last : List Token} {v : Json} {more : List Json} (value : Forms first v)
      (rest : ItemsEnd last more) : Grouped (.openArray :: (first ++ last)) (.array (v :: more))
  | emptyObject : Grouped [.openObject, .closeObject] (.object [])
  | object {first last : List Token} {name : List Char} {v : Json}
      {more : List (List Char × Json)} (value : Forms first v) (rest : MembersEnd last more) :
    Grouped (.openObject :: .text name :: .colon :: (first ++ last)) (.object ((name, v) :: more))

theorem Forms.exists_cons (h : Forms tokens v) :
    ∃ t rest, tokens = t :: rest ∧ t ≠ .closeArray := by
  cases tokens with
  | nil => cases h []
  | cons t rest =>
    refine ⟨t, rest, rfl, ?_⟩
    rintro rfl
    cases h []

theorem forms_text (written : List Char) : Forms [.text written] (.text written) := fun _ => rfl

theorem forms_array {first last : List Token} {more : List Json} (hv : Forms first v)
    (h : ItemsEnd last more) : Forms (.openArray :: (first ++ last)) (.array (v :: more)) := by
  intro base
  obtain ⟨t, rest, rfl, ht⟩ := hv.exists_cons
  refine (readFrom_valueOrEnd ⟨t, rest ++ last, rfl, ht⟩ (.array [] :: base)).trans ?_
  refine (readFrom_append _ (t :: rest) last).trans ?_
  rw [hv, Option.bind_some]
  exact h.readFrom [] base v

theorem forms_object {first last : List Token} {name : List Char}
    {more : List (List Char × Json)} (hv : Forms first v) (h : MembersEnd last more) :
    Forms (.openObject :: .text name :: .colon :: (first ++ last))
      (.object ((name, v) :: more)) := by
  intro base
  refine (readFrom_append ⟨.object [] name :: base, .value⟩ first last).trans ?_
  rw [hv, Option.bind_some]
  exact h.readFrom [] name base v

/-- Nothing follows a document. -/
theorem Finishes.eq_nil (h : Finishes ⟨[], .after v⟩ tokens j) : tokens = [] ∧ v = j := by
  cases tokens with
  | nil =>
    cases h
    exact ⟨rfl, rfl⟩
  | cons t tokens =>
    obtain ⟨r, hstep, -⟩ := h.exists_step
    cases t <;> cases hstep

theorem grouped_openArray (h : Finishes ⟨[.array []], .valueOrEnd⟩ tokens j) :
    Grouped (.openArray :: tokens) j := by
  by_cases hfirst : ∃ t rest, tokens = t :: rest ∧ t ≠ .closeArray
  · have hvalue : Finishes ⟨[.array []], .value⟩ tokens j :=
      (readFrom_valueOrEnd hfirst _).symm.trans h
    obtain ⟨first, rest, v, rfl, hv⟩ := exists_value hvalue (by simp)
    have hafter := hvalue.of_readFrom (hv _)
    obtain ⟨last, rest, more, rfl, hlast⟩ := exists_itemsEnd hafter
    obtain ⟨rfl, rfl⟩ := (hafter.of_readFrom (hlast.readFrom _ _ _)).eq_nil
    rw [List.append_nil]
    exact .array hv hlast
  · cases tokens with
    | nil => cases h
    | cons t tokens =>
      obtain rfl : t = .closeArray := by
        by_contra ht
        exact hfirst ⟨t, tokens, rfl, ht⟩
      have hend : Finishes ⟨[], .after (.array [])⟩ tokens j := h
      obtain ⟨rfl, rfl⟩ := hend.eq_nil
      exact .emptyArray

theorem grouped_openObject (h : Finishes ⟨[], .nameOrEnd⟩ tokens j) :
    Grouped (.openObject :: tokens) j := by
  cases tokens with
  | nil => cases h
  | cons t tokens =>
    cases t with
    | closeObject =>
      have hend : Finishes ⟨[], .after (.object [])⟩ tokens j := h
      obtain ⟨rfl, rfl⟩ := hend.eq_nil
      exact .emptyObject
    | text name =>
      have hname : Finishes ⟨[], .name []⟩ (.text name :: tokens) j := h
      obtain ⟨other, tokens, heq, h⟩ := exists_member hname
      cases heq
      obtain ⟨first, rest, v, rfl, hv⟩ := exists_value h (by simp)
      have hafter := h.of_readFrom (hv _)
      obtain ⟨last, rest, more, rfl, hlast⟩ := exists_membersEnd hafter
      obtain ⟨rfl, rfl⟩ := (hafter.of_readFrom (hlast.readFrom _ _ _ _)).eq_nil
      rw [List.append_nil]
      exact .object hv hlast
    | _ => cases h

theorem grouped (h : Finishes ⟨[], .value⟩ tokens j) : Grouped tokens j := by
  cases tokens with
  | nil => cases h
  | cons t tokens =>
    obtain ⟨r, hstep, hrest⟩ := h.exists_step
    cases t with
    | openArray =>
      obtain rfl := Option.some.inj hstep
      exact grouped_openArray hrest
    | openObject =>
      obtain rfl := Option.some.inj hstep
      exact grouped_openObject hrest
    | text written =>
      obtain rfl := Option.some.inj hstep
      obtain ⟨rfl, rfl⟩ := hrest.eq_nil
      exact .text written
    | atom v =>
      obtain rfl := Option.some.inj hstep
      obtain ⟨rfl, rfl⟩ := hrest.eq_nil
      exact .atom v
    | _ => cases hstep

/-! ## Replacing a value -/

/-- A document as a function of a value at some place in it. -/
inductive Context : (Json → Json) → Prop where
  | hole : Context fun v => v
  | item {f : Json → Json} (h : Context f) (before after : List Json) :
    Context fun v => .array (before ++ f v :: after)
  | member {f : Json → Json} (h : Context f) (before : List (List Char × Json)) (name : List Char)
      (after : List (List Char × Json)) :
    Context fun v => .object (before ++ (name, f v) :: after)

/-- A value in the rest of an array has tokens there, and can be replaced by another one with its
tokens. -/
theorem ItemsEnd.exists_tokens {before after : List Json}
    (h : ItemsEnd tokens (before ++ v :: after)) : ∃ pre mid post,
      tokens = pre ++ (mid ++ post) ∧ Forms mid v ∧
      ∀ mid' v', Forms mid' v' → ItemsEnd (pre ++ (mid' ++ post)) (before ++ v' :: after) := by
  induction before generalizing tokens with
  | nil =>
    cases h with
    | @comma first last _ _ value rest =>
      refine ⟨[.comma], first, last, rfl, value, fun mid' v' hv => ?_⟩
      have hnew : ItemsEnd (.comma :: (mid' ++ last)) (v' :: after) := .comma hv rest
      exact hnew
  | cons u before ih =>
    cases h with
    | @comma first last _ _ value rest =>
      obtain ⟨pre, mid, post, rfl, hmid, hother⟩ := ih rest
      refine ⟨.comma :: (first ++ pre), mid, post, by simp, hmid, fun mid' v' hv => ?_⟩
      rw [List.cons_append, List.append_assoc]
      exact .comma value (hother mid' v' hv)

theorem MembersEnd.exists_tokens {before after : List (List Char × Json)} {name : List Char}
    (h : MembersEnd tokens (before ++ (name, v) :: after)) : ∃ pre mid post,
      tokens = pre ++ (mid ++ post) ∧ Forms mid v ∧
      ∀ mid' v', Forms mid' v' →
        MembersEnd (pre ++ (mid' ++ post)) (before ++ (name, v') :: after) := by
  induction before generalizing tokens with
  | nil =>
    cases h with
    | @comma first last _ _ _ value rest =>
      refine ⟨[.comma, .text name, .colon], first, last, rfl, value, fun mid' v' hv => ?_⟩
      have hnew : MembersEnd (.comma :: .text name :: .colon :: (mid' ++ last))
        ((name, v') :: after) := .comma hv rest
      exact hnew
  | cons u before ih =>
    cases h with
    | @comma first last other _ _ value rest =>
      obtain ⟨pre, mid, post, rfl, hmid, hother⟩ := ih rest
      refine ⟨.comma :: .text other :: .colon :: (first ++ pre), mid, post, by simp, hmid,
        fun mid' v' hv => ?_⟩
      simp only [List.cons_append, List.append_assoc]
      exact .comma value (hother mid' v' hv)

/-- So can a value in an array or an object. -/
theorem Grouped.exists_item {before after : List Json}
    (h : Grouped tokens (.array (before ++ v :: after)))
    (hs : ∀ u, .atom u ∈ tokens → u.Simple) : ∃ pre mid post,
      tokens = pre ++ (mid ++ post) ∧ Forms mid v ∧
      ∀ mid' v', Forms mid' v' →
        Forms (pre ++ (mid' ++ post)) (.array (before ++ v' :: after)) := by
  generalize hj : Json.array (before ++ v :: after) = j at h
  cases h with
  | atom =>
    have hsimple := hs j (by simp)
    rw [← hj] at hsimple
    exact hsimple.elim
  | @array first last u more value rest =>
    have hitems := Json.array.inj hj
    cases before with
    | nil =>
      cases hitems
      refine ⟨[.openArray], first, last, rfl, value, fun mid' v' hv => ?_⟩
      have hnew : Forms (.openArray :: (mid' ++ last)) _ := forms_array hv rest
      exact hnew
    | cons b before =>
      cases hitems
      obtain ⟨pre, mid, post, rfl, hmid, hother⟩ := rest.exists_tokens
      refine ⟨.openArray :: (first ++ pre), mid, post, by simp, hmid, fun mid' v' hv => ?_⟩
      rw [List.cons_append, List.append_assoc]
      exact forms_array value (hother mid' v' hv)
  | emptyArray => simp at hj
  | _ => cases hj

theorem Grouped.exists_member {before after : List (List Char × Json)} {name : List Char}
    (h : Grouped tokens (.object (before ++ (name, v) :: after)))
    (hs : ∀ u, .atom u ∈ tokens → u.Simple) : ∃ pre mid post,
      tokens = pre ++ (mid ++ post) ∧ Forms mid v ∧
      ∀ mid' v', Forms mid' v' →
        Forms (pre ++ (mid' ++ post)) (.object (before ++ (name, v') :: after)) := by
  generalize hj : Json.object (before ++ (name, v) :: after) = j at h
  cases h with
  | atom =>
    have hsimple := hs j (by simp)
    rw [← hj] at hsimple
    exact hsimple.elim
  | @object first last other u more value rest =>
    have hmembers := Json.object.inj hj
    cases before with
    | nil =>
      cases hmembers
      refine ⟨[.openObject, .text name, .colon], first, last, rfl, value, fun mid' v' hv => ?_⟩
      have hnew : Forms (.openObject :: .text name :: .colon :: (mid' ++ last)) _ :=
        forms_object hv rest
      exact hnew
    | cons b before =>
      cases hmembers
      obtain ⟨pre, mid, post, rfl, hmid, hother⟩ := rest.exists_tokens
      refine ⟨.openObject :: .text other :: .colon :: (first ++ pre), mid, post, by simp, hmid,
        fun mid' v' hv => ?_⟩
      simp only [List.cons_append, List.append_assoc]
      exact forms_object value (hother mid' v' hv)
  | emptyObject => simp at hj
  | _ => cases hj

/-- A value in a document has tokens of its own there, and can be replaced by another one with its
tokens. By induction on the place of the value. -/
theorem Context.exists_tokens {f : Json → Json} (hf : Context f)
    (h : Finishes ⟨[], .value⟩ tokens (f v)) (hs : ∀ u, .atom u ∈ tokens → u.Simple) :
    ∃ pre mid post, tokens = pre ++ (mid ++ post) ∧ Finishes ⟨[], .value⟩ mid v ∧
      ∀ mid' v', Forms mid' v' → Forms (pre ++ (mid' ++ post)) (f v') := by
  induction hf generalizing tokens with
  | hole => exact ⟨[], tokens, [], by simp, h, fun mid' v' hv => by simpa using hv⟩
  | item hf before after ih =>
    obtain ⟨pre, mid, post, rfl, hmid, hother⟩ := (grouped h).exists_item hs
    obtain ⟨pre', mid', post', rfl, hmid', hother'⟩ :=
      ih (hmid []) fun u hu => hs u (List.mem_append_right _ (List.mem_append_left _ hu))
    refine ⟨pre ++ pre', mid', post' ++ post, by simp, hmid', fun mid'' v' hv => ?_⟩
    have hall := hother _ _ (hother' mid'' v' hv)
    simpa using hall
  | member hf before name after ih =>
    obtain ⟨pre, mid, post, rfl, hmid, hother⟩ := (grouped h).exists_member hs
    obtain ⟨pre', mid', post', rfl, hmid', hother'⟩ :=
      ih (hmid []) fun u hu => hs u (List.mem_append_right _ (List.mem_append_left _ hu))
    refine ⟨pre ++ pre', mid', post' ++ post, by simp, hmid', fun mid'' v' hv => ?_⟩
    have hall := hother _ _ (hother' mid'' v' hv)
    simpa using hall

theorem ofTokens?_eq_some_iff : ofTokens? tokens = some j ↔ Finishes ⟨[], .value⟩ tokens j := by
  constructor
  · intro h
    obtain ⟨⟨stack, e⟩, hread, hresult⟩ := Option.bind_eq_some_iff.1 h
    cases stack with
    | nil =>
      cases e with
      | after v =>
        cases hresult
        exact hread
      | _ => cases hresult
    | cons o stack => cases hresult
  · intro h
    exact Option.bind_eq_some_iff.2 ⟨_, h, rfl⟩

/-- A text in a document stands in a gap of it: whatever text is put there, the document is read
with that one in its place. -/
theorem Context.exists_gap {f : Json → Json} (hf : Context f) {content : String}
    {written : List Char} (hw : Token.Taken written)
    (h : read? content = some (f (.text written))) :
    ∃ g : Gap, content = g.fill written ∧
      ∀ other, Token.Taken other → read? (g.fill other) = some (f (.text other)) := by
  obtain ⟨tokens, hscan, hread⟩ := Option.bind_eq_some_iff.1 h
  obtain ⟨pre, mid, post, rfl, hmid, hother⟩ :=
    hf.exists_tokens (ofTokens?_eq_some_iff.1 hread) fun u hu => simple_of_scan hscan hu
  obtain rfl : mid = [.text written] := by
    generalize hj : Json.text written = j at hmid
    cases grouped hmid with
    | text other =>
      cases hj
      rfl
    | atom =>
      have hsimple : j.Simple := simple_of_scan hscan (by simp)
      rw [← hj] at hsimple
      exact hsimple.elim
    | _ => cases hj
  obtain ⟨g, rfl, hg⟩ := Json.exists_gap hscan hw
  refine ⟨g, rfl, fun other ho => ?_⟩
  rw [read?, hg other ho]
  exact ofTokens?_eq_some_iff.2 (hother [.text other] _ (forms_text other) [])

end AdLedger.Json
