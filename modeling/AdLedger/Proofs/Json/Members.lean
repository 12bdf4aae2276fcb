import AdLedger.Proofs.Json.Contexts
import Mathlib.Data.List.Nodup

/-!
# Values found under names

The members of an object, or the items of an array in their order, are found under names. A value
that is found under one stands in a place of its own in the document (`Asked`, `exists_asked`), and
with another value there nothing else is found (`Asked.fields?_set`).
-/

namespace AdLedger.Json

/-! ## Results for the elements of a list -/

section

variable {α β : Type} {f g : α → Option β} {xs ys : List α} {zs : List β}

theorem exists_append_cons {k : Nat} {x : α} (h : xs[k]? = some x) :
    ∃ before after, xs = before ++ x :: after ∧ before.length = k := by
  obtain ⟨hlt, rfl⟩ := List.getElem?_eq_some_iff.1 h
  refine ⟨xs.take k, xs.drop (k + 1), ?_, List.length_take_of_le hlt.le⟩
  rw [← List.drop_eq_getElem_cons hlt, List.take_append_drop]

theorem length_of_mapM (h : xs.mapM f = some zs) : zs.length = xs.length := by
  simpa using congrArg List.length (mapM_eq_some_iff.1 h).symm

theorem isSome_of_mapM {x : α} (h : xs.mapM f = some zs) (hx : x ∈ xs) : (f x).isSome := by
  have hmem : f x ∈ zs.map some := mapM_eq_some_iff.1 h ▸ List.mem_map_of_mem hx
  obtain ⟨z, -, hz⟩ := List.mem_map.1 hmem
  rw [← hz, Option.isSome_some]

/-- Each result is that of the element in its place. -/
theorem exists_of_mapM {z : β} {k : Nat} (h : xs.mapM f = some zs) (hk : zs[k]? = some z) :
    ∃ x, xs[k]? = some x ∧ f x = some z := by
  have hresult : (xs.map f)[k]? = some (some z) := by
    rw [mapM_eq_some_iff.1 h, List.getElem?_map, hk, Option.map_some]
  rw [List.getElem?_map] at hresult
  exact Option.map_eq_some_iff.1 hresult

/-- With another result for one element, the results are the same but in its place. -/
theorem mapM_eq_some_set {a : α} {b : β} {k : Nat} (h : xs.mapM f = some zs)
    (hk : xs[k]? = some a) (hnodup : xs.Nodup) (hsame : ∀ x, x ≠ a → g x = f x)
    (ha : g a = some b) : xs.mapM g = some (zs.set k b) := by
  obtain ⟨hlt, rfl⟩ := List.getElem?_eq_some_iff.1 hk
  rw [mapM_eq_some_iff, List.map_set, ← mapM_eq_some_iff.1 h]
  refine List.ext_getElem (by simp) fun i hi _ => ?_
  rw [List.getElem_set, List.getElem_map, List.getElem_map]
  split
  next hki =>
    subst hki
    exact ha
  next hki => exact hsame _ fun he => hki (hnodup.getElem_inj_iff.1 he).symm

theorem mapM_append_cons_eq_some_iff {x : α} :
    (xs ++ x :: ys).mapM f = some zs ↔ ∃ as b cs, zs = as ++ b :: cs ∧
      xs.mapM f = some as ∧ f x = some b ∧ ys.mapM f = some cs := by
  simp only [mapM_eq_some_iff, List.map_append, List.map_cons]
  constructor
  · intro h
    obtain ⟨as, rest, rfl, has, hrest⟩ := List.map_eq_append_iff.1 h.symm
    obtain ⟨b, cs, rfl, hb, hcs⟩ := List.map_eq_cons_iff.1 hrest
    exact ⟨as, b, cs, rfl, has.symm, hb.symm, hcs.symm⟩
  · rintro ⟨as, b, cs, rfl, has, hb, hcs⟩
    rw [has, hb, hcs, List.map_append, List.map_cons]

end

/-! ## Members of an object -/

/-- A member with its name as a text. -/
def named? (m : List Char × Json) : Option (String × Json) := do
  return (String.ofList (← unquote? m.1), m.2)

/-- What members have under a name, if the name does not occur twice. -/
def found? (members : List (String × Json)) (name : String) : Option (Option Json) :=
  match members.filter (·.1 = name) with
  | [] => some none
  | [(_, value)] => some (some value)
  | _ => none

theorem fields?_object (names : List String) (members : List (List Char × Json)) :
    (object members).fields? names =
      (members.mapM named?).bind fun members => names.mapM (found? members) := rfl

/-- Under the name of a member there is the member alone. -/
theorem found?_self {before after : List (String × Json)} {name : String} {v : Json}
    (h : (found? (before ++ (name, v) :: after) name).isSome) (other : Json) :
    found? (before ++ (name, other) :: after) name = some (some other) := by
  rw [found?, List.filter_append, List.filter_cons_of_pos (by simp)] at h ⊢
  generalize before.filter (·.1 = name) = firsts at h ⊢
  generalize after.filter (·.1 = name) = lasts at h ⊢
  cases firsts with
  | nil =>
    cases lasts with
    | nil => rfl
    | cons m lasts => cases h
  | cons m firsts => cases firsts <;> cases h

theorem mem_of_found? {members : List (String × Json)} {name : String} {v : Json}
    (h : found? members name = some (some v)) : (name, v) ∈ members := by
  unfold found? at h
  split at h
  · cases h
  next other value hfilter =>
    cases h
    obtain ⟨hmem, hname⟩ := List.mem_filter.1 (hfilter ▸ List.mem_singleton_self (other, v))
    rwa [← of_decide_eq_true hname]
  · cases h

theorem found?_of_ne {before after : List (String × Json)} {name asked : String}
    (h : asked ≠ name) (v other : Json) : found? (before ++ (name, other) :: after) asked =
      found? (before ++ (name, v) :: after) asked := by
  have hothers : ∀ value, (before ++ (name, value) :: after).filter (·.1 = asked) =
      before.filter (·.1 = asked) ++ after.filter (·.1 = asked) := by
    intro value
    rw [List.filter_append, List.filter_cons_of_neg (by simp [h.symm])]
  rw [found?, found?, hothers, hothers]

/-! ## Places of values -/

/-- An array or an object as a function of the value that is found in it under the name at a
position among some names. -/
inductive Asked (names : List String) : Nat → (Json → Json) → Prop where
  | item (before after : List Json) :
    Asked names before.length fun v => .array (before ++ v :: after)
  | member {k : Nat} {name text : List Char} (hname : unquote? name = some text)
      (hk : names[k]? = some (String.ofList text)) (before after : List (List Char × Json)) :
    Asked names k fun v => .object (before ++ (name, v) :: after)

variable {names : List String} {k : Nat} {f : Json → Json} {j v : Json}
  {values : List (Option Json)}

theorem Asked.context (h : Asked names k f) : Context f := by
  cases h with
  | item before after => exact .item .hole before after
  | member hname hk before after => exact .member .hole before _ after

/-- A value that is found under a name is in a place of its own. -/
theorem exists_asked (h : j.fields? names = some values) (hk : values[k]? = some (some v)) :
    ∃ f, Asked names k f ∧ j = f v := by
  cases j with
  | array items =>
    simp only [fields?] at h
    split at h
    · obtain rfl := Option.some.inj h
      have hitem : items[k]? = some v := by
        by_cases hlt : k < items.length
        · simpa [List.getElem?_append, hlt] using hk
        · simp [List.getElem?_append, hlt, List.getElem?_replicate] at hk
      obtain ⟨before, after, rfl, rfl⟩ := exists_append_cons hitem
      exact ⟨_, .item before after, rfl⟩
    · cases h
  | object members =>
    rw [fields?_object] at h
    obtain ⟨all, hall, h⟩ := Option.bind_eq_some_iff.1 h
    obtain ⟨name, hname, hfound⟩ := exists_of_mapM h hk
    obtain ⟨i, hi⟩ := List.mem_iff_getElem?.1 (mem_of_found? hfound)
    obtain ⟨⟨quoted, value⟩, hquoted, hnamed⟩ := exists_of_mapM hall hi
    obtain ⟨text, htext, hnamed⟩ := Option.bind_eq_some_iff.1 hnamed
    cases hnamed
    obtain ⟨before, after, rfl⟩ := List.append_of_mem (List.mem_of_getElem? hquoted)
    exact ⟨_, .member htext hname before after, rfl⟩
  | _ => cases h

/-- Another value in the place of one is found under the same name, and the others are as before. -/
theorem Asked.fields?_set (hf : Asked names k f) (hn : names.Nodup)
    (h : (f v).fields? names = some values) (other : Json) :
    (f other).fields? names = some (values.set k (some other)) := by
  cases hf with
  | item before after =>
    simp only [fields?, List.length_append, List.length_cons] at h ⊢
    split at h
    next hlen =>
      obtain rfl := Option.some.inj h
      rw [if_pos hlen, List.map_append, List.map_append, List.append_assoc, List.append_assoc,
        List.set_append_right _ _ (by simp)]
      simp
    · cases h
  | @member _ name text hname hk before after =>
    rw [fields?_object] at h ⊢
    obtain ⟨all, hall, h⟩ := Option.bind_eq_some_iff.1 h
    obtain ⟨firsts, m, lasts, rfl, hfirsts, hm, hlasts⟩ := mapM_append_cons_eq_some_iff.1 hall
    have hnamed : ∀ value, named? (name, value) = some (String.ofList text, value) := by
      intro value
      rw [named?, hname]
      rfl
    obtain rfl := Option.some.inj ((hnamed v).symm.trans hm)
    refine Option.bind_eq_some_iff.2 ⟨firsts ++ (String.ofList text, other) :: lasts,
      mapM_append_cons_eq_some_iff.2 ⟨_, _, _, rfl, hfirsts, hnamed other, hlasts⟩, ?_⟩
    have hfound := isSome_of_mapM h (List.mem_of_getElem? hk)
    exact mapM_eq_some_set h hk hn (fun asked hne => found?_of_ne hne v other)
      (found?_self hfound other)

end AdLedger.Json
