import AdLedger.Cli.Matching
import AdLedger.Proofs.Files
import AdLedger.Proofs.Sql.Statement

/-!
# Variables that give options

A command line read while a variable has a value, against the same one read while the variable is
unset (`Grammar.compared_readFrom`). The variable is one that gives a path option, and every grammar
on the way asks for it by itself. So a value that is not empty is as good as the option wherever the
words do not give it, and an empty value is a fault unless the words give the option to every single
grammar.
-/

namespace AdLedger

open Sql (bind_eq_ok)

/-! ## Environments -/

namespace Environment

/-- The environment without a variable. -/
def unset (env : Environment) (var : String) : Environment := env.filter fun e => decide (e.1 ≠ var)

variable {env : Environment} {var other : String}

theorem lookup_unset_self (env : Environment) (var : String) :
    (env.unset var).lookup var = none := by
  have hfilter := Files.lookup_filter_key (fun n => decide (n ≠ var)) var env
  rw [unset, hfilter]
  simp

theorem lookup_unset_of_ne (h : other ≠ var) : (env.unset var).lookup other = env.lookup other := by
  have hfilter := Files.lookup_filter_key (fun n => decide (n ≠ var)) other env
  rw [unset, hfilter]
  simp [h]

theorem unset_eq_self (h : env.lookup var = none) : env.unset var = env := by
  refine List.filter_eq_self.2 fun e he => ?_
  have hne := List.lookup_eq_none_iff.1 h e he
  exact decide_eq_true (bne_iff_ne.1 hne).symm

end Environment

namespace Cli

variable {g : Grammar} {p q : Progress} {param : Parameter} {name var value n : String}
  {words : List String}

theorem mem_of_lookup {α β : Type} [BEq α] [LawfulBEq α] {entries : List (α × β)} {key : α} {b : β}
    (h : entries.lookup key = some b) : (key, b) ∈ entries := by
  obtain ⟨before, after, rfl, -⟩ := List.lookup_eq_some_iff.1 h
  exact List.mem_append_right _ List.mem_cons_self

/-! ## Grammars with a path option -/

namespace Grammar

/-- The grammar has a path option that the variable gives as well, and no other parameter of its
name and no other option that the variable gives. -/
structure Offers (g : Grammar) (name var : String) : Prop where
  offered : .location name var ∈ g.options
  named : ∀ param ∈ g.options ++ g.arguments, param.name = name → param = .location name var
  sourced : ∀ param ∈ g.options, param.source = some var → param = .location name var

/-- What holds of a grammar and of those of all its commands. -/
inductive Throughout (holds : Grammar → Prop) : Grammar → Prop
  | intro {g : Grammar} (here : holds g)
      (below : ∀ command ∈ g.commands, Throughout holds command.2) : Throughout holds g

theorem Offers.named_option (h : g.Offers name var) (hp : param ∈ g.options) :
    param.name = name → param = .location name var :=
  h.named param (List.mem_append_left _ hp)

end Grammar

/-! ## The option among words -/

namespace Progress

/-- The option has come at most once, with a text, and what waits for its value under its name is
the option. -/
structure Orderly (name var : String) (p : Progress) : Prop where
  text : ∀ given, (name, given) ∈ p.given → ∃ s, given = .text s
  once : p.given.countP (·.1 = name) ≤ 1
  pending : ∀ param value, p.pending = some (param, value) → param.name = name →
    param = .location name var

theorem orderly_start (name var : String) : start.Orderly name var where
  text := by simp [start]
  once := by simp [start]
  pending := by simp [start]

theorem has_eq_false_iff : p.has name = false ↔ p.given.countP (·.1 = name) = 0 := by
  rw [has, Option.isSome_eq_false_iff, Option.isNone_iff_eq_none, List.lookup_eq_none_iff,
    List.countP_eq_zero]
  simp only [bne_iff_ne, decide_eq_true_eq, ne_comm, ne_eq]

namespace Orderly

theorem countP_eq_one_iff (h : p.Orderly name var) :
    p.given.countP (·.1 = name) = 1 ↔ p.has name = true := by
  have honce := h.once
  rw [← Bool.not_eq_false, has_eq_false_iff]
  omega

theorem note (h : p.Orderly name var) (hn : n ≠ name) (given : Given) :
    (p.note n given).Orderly name var where
  text := by simpa [Progress.note, hn.symm] using h.text
  once := by simpa [Progress.note, hn] using h.once
  pending := h.pending

theorem take (h : p.Orderly name var) (hparam : param.name = name → param = .location name var)
    (hq : p.take param value = .ok q) : q.Orderly name var := by
  unfold Progress.take at hq
  split at hq
  · cases hq
  next hhas =>
    obtain ⟨given, hread, hnote⟩ := bind_eq_ok.1 hq
    cases hnote
    by_cases hn : param.name = name
    · have hnone : p.given.countP (·.1 = name) = 0 := by
        rw [← has_eq_false_iff, ← hn]
        exact Bool.eq_false_iff.2 hhas
      have htext : ∃ s, given = .text s := by
        rw [hparam hn] at hread
        unfold Parameter.read Parameter.location Shape.read at hread
        dsimp only at hread
        split at hread <;> cases hread
        exact ⟨value, rfl⟩
      refine ⟨fun other hother => ?_, ?_, h.pending⟩
      · obtain hother | hother := List.mem_append.1 hother
        · exact h.text other hother
        · cases List.mem_singleton.1 hother
          exact htext
      · simp [Progress.note, hn, hnone]
    · exact h.note hn given

theorem settle (h : p.Orderly name var) (hq : p.settle = .ok q) : q.Orderly name var := by
  unfold Progress.settle at hq
  split at hq
  · cases hq
    exact h
  · cases hq
  next param value hp =>
    have hidle : ({ p with pending := none } : Progress).Orderly name var :=
      ⟨h.text, h.once, by simp⟩
    exact hidle.take (h.pending param _ hp) hq

theorem beginOption (h : p.Orderly name var)
    (hparam : param.name = name → param = .location name var)
    (hq : p.beginOption param = .ok q) : q.Orderly name var := by
  obtain ⟨r, hr, hq⟩ := bind_eq_ok.1 hq
  have hr := h.settle hr
  -- what takes no value is not the option
  have hne (hmode : param.takesValue = false) : param.name ≠ name := by
    intro hn
    rw [hparam hn] at hmode
    cases hmode
  split at hq
  next hmode =>
    split at hq
    · cases hq
    · cases hq
      exact hr.note (hne (by simp [Parameter.takesValue, hmode])) _
  next hmode =>
    cases hq
    exact hr.note (hne (by simp [Parameter.takesValue, hmode])) _
  · cases hq
  · cases hq
  · cases hq
    refine ⟨hr.text, hr.once, fun other value hother => ?_⟩
    cases hother
    exact hparam

theorem joinedOption (h : p.Orderly name var)
    (hparam : param.name = name → param = .location name var)
    (hq : p.joinedOption param value = .ok q) : q.Orderly name var := by
  unfold Progress.joinedOption at hq
  split at hq
  · obtain ⟨r, hr, hq⟩ := bind_eq_ok.1 hq
    exact (h.settle hr).take hparam hq
  · cases hq

theorem letters {cs : List Char} (hg : g.Offers name var) (h : p.Orderly name var)
    (hq : p.letters g cs = .ok q) : q.Orderly name var := by
  induction cs generalizing p with
  | nil =>
    cases hq
    exact h
  | cons c rest ih =>
    unfold Progress.letters at hq
    split at hq
    · cases hq
    next param hfind =>
      have hparam := hg.named_option (List.mem_of_find?_eq_some hfind)
      split at hq
      · split at hq
        · exact h.beginOption hparam hq
        · exact h.joinedOption hparam hq
        · exact h.joinedOption hparam hq
      · obtain ⟨r, hr, hq⟩ := bind_eq_ok.1 hq
        exact ih (h.beginOption hparam hr) hq

theorem long {cs : List Char} (hg : g.Offers name var) (h : p.Orderly name var)
    (hq : p.long g cs = .ok q) : q.Orderly name var := by
  unfold Progress.long at hq
  dsimp only at hq
  split at hq
  · cases hq
  next hfind _ => exact h.beginOption (hg.named_option (List.mem_of_find?_eq_some hfind)) hq
  next hfind _ => exact h.joinedOption (hg.named_option (List.mem_of_find?_eq_some hfind)) hq

theorem plain {w : String} (hg : g.Offers name var) (h : p.Orderly name var)
    (hq : p.plain g w = .ok q) : q.Orderly name var := by
  unfold Progress.plain at hq
  split at hq
  next hp =>
    cases hq
    refine ⟨h.text, h.once, fun param value hparam => ?_⟩
    cases hparam
    exact h.pending _ _ hp
  · split at hq
    next param harg =>
      obtain ⟨r, hr, hq⟩ := bind_eq_ok.1 hq
      cases hq
      have hr := h.settle hr
      refine ⟨hr.text, hr.once, fun other value hother => ?_⟩
      cases hother
      exact hg.named _ (List.mem_append_right _ (List.mem_of_getElem? harg))
    · split at hq <;> cases hq

/-- Every word keeps the option in order. -/
theorem word {w : String} (hg : g.Offers name var) (h : p.Orderly name var)
    (hq : p.word g w = .ok q) : q.Orderly name var := by
  unfold Progress.word at hq
  split at hq
  · exact h.plain hg hq
  · split at hq
    · cases hq
      exact ⟨h.text, h.once, h.pending⟩
    · exact h.long hg hq
    · exact h.letters hg hq
    · exact h.plain hg hq

end Orderly

end Progress

/-! ## Two readings -/

/-- How a reading with a value for the variable compares to one without. It ends in the same fault,
or it refuses an empty value where the other one, if it comes to an end, does not have the option
all the way; else both come to an end, with the option all the way if the value is empty. -/
inductive Compared {α : Type} (name value : String) (related : α → α → Prop) (whole : α → Prop) :
    Except UsageFault α → Except UsageFault α → Prop
  | fault (fault : UsageFault) : Compared name value related whole (.error fault) (.error fault)
  | refused {x : Except UsageFault α} (hempty : value = "") (hx : ∀ a, x = .ok a → ¬ whole a) :
      Compared name value related whole (.error (.noValue name)) x
  | read {a b : α} (h : related a b) (hwhole : value = "" → whole b) :
      Compared name value related whole (.ok a) (.ok b)

theorem Compared.bind {α β : Type} {related : α → α → Prop} {whole : α → Prop}
    {related' : β → β → Prop} {whole' : β → Prop} {x y : Except UsageFault α}
    {f f' : α → Except UsageFault β} (h : Compared name value related whole x y)
    (hf : ∀ a b, y = .ok b → related a b → (value = "" → whole b) →
      Compared name value related' whole' (f a) (f' b))
    (hwhole : ∀ a b, y = .ok a → f' a = .ok b → whole' b → whole a) :
    Compared name value related' whole' (x >>= f) (y >>= f') := by
  cases h with
  | fault fault => exact .fault fault
  | refused hempty hx =>
    refine .refused hempty fun b hb hw => ?_
    obtain ⟨a, ha, hb⟩ := bind_eq_ok.1 hb
    exact hx a ha (hwhole a b ha hb hw)
  | read h hread => exact hf _ _ rfl h hread

/-- What comes first and does not read the variable is the same in both. -/
theorem Compared.bind_self {α β : Type} {related : β → β → Prop} {whole : β → Prop}
    {x : Except UsageFault α} {f f' : α → Except UsageFault β}
    (h : ∀ a, x = .ok a → Compared name value related whole (f a) (f' a)) :
    Compared name value related whole (x >>= f) (x >>= f') := by
  cases x with
  | error fault => exact .fault fault
  | ok a => exact h a rfl

theorem Compared.refl {α : Type} {related : α → α → Prop} {whole : α → Prop}
    {x : Except UsageFault α} (h : ∀ a, x = .ok a → related a a ∧ whole a) :
    Compared name value related whole x x := by
  cases x with
  | error fault => exact .fault fault
  | ok a => exact .read (h a rfl).1 fun _ => (h a rfl).2

/-- Entries that differ in what the value gives, which they have where the option is missing. -/
structure Supplied (name value : String) (missing : Prop)
    (entries entries' : List (String × Given)) : Prop where
  others : ∀ n, n ≠ name → entries.lookup n = entries'.lookup n
  unset : entries'.lookup name = none
  only : ∀ given, entries.lookup name = some given → given = .text value
  supplied : missing → entries.lookup name = some (.text value)

namespace Supplied

variable {missing missing' : Prop} {entries entries' more more' : List (String × Given)}

theorem mono (h : Supplied name value missing entries entries') (hm : missing' → missing) :
    Supplied name value missing' entries entries' :=
  { h with supplied := fun hm' => h.supplied (hm hm') }

theorem append (h : Supplied name value missing entries entries')
    (h' : Supplied name value missing' more more') :
    Supplied name value (missing ∨ missing') (entries ++ more) (entries' ++ more') where
  others n hne := by rw [List.lookup_append, List.lookup_append, h.others n hne, h'.others n hne]
  unset := by rw [List.lookup_append, h.unset, h'.unset, Option.none_or]
  only given hgiven := by
    rw [List.lookup_append] at hgiven
    obtain hgiven | ⟨-, hgiven⟩ := Option.or_eq_some_iff.1 hgiven
    · exact h.only given hgiven
    · exact h'.only given hgiven
  supplied hm := by
    rw [List.lookup_append]
    cases hfirst : entries.lookup name with
    | some given => rw [Option.some_or, h.only given hfirst]
    | none =>
      obtain hm | hm := hm
      · exact absurd (h.supplied hm) (by simp [hfirst])
      · rw [Option.none_or, h'.supplied hm]

/-- Nothing is supplied by entries under other names. -/
theorem refl (h : entries.lookup name = none) (hm : ¬ missing) :
    Supplied name value missing entries entries where
  others _ _ := rfl
  unset := h
  only given hgiven := by simp [h] at hgiven
  supplied hmissing := absurd hmissing hm

end Supplied

/-! ## What variables give -/

namespace Progress

variable {env : Environment}

/-- What a variable gives for one option. -/
def offer (env : Environment) (p : Progress) (param : Parameter) :
    Except UsageFault (List (String × Given)) :=
  match param.source.bind fun var => env.lookup var with
  | some value => if p.has param.name then pure [] else return [(param.name, ← param.read value)]
  | none => pure []

theorem fromEnvironment_eq (env : Environment) (g : Grammar) (p : Progress) :
    p.fromEnvironment env g = g.options.mapM (p.offer env) >>= fun found => pure found.flatten :=
  rfl

theorem offer_unset (h : param.source ≠ some var) :
    p.offer (env.unset var) param = p.offer env param := by
  unfold offer
  cases hsource : param.source with
  | none => rfl
  | some other =>
    rw [hsource] at h
    have hne : other ≠ var := fun heq => h (congrArg some heq)
    simp only [Option.bind_some, Environment.lookup_unset_of_ne hne]

theorem lookup_offer {found : List (String × Given)} (h : p.offer env param = .ok found)
    (hn : param.name ≠ n) : found.lookup n = none := by
  unfold offer at h
  split at h
  · split at h
    · cases h
      rfl
    · obtain ⟨given, -, hfound⟩ := bind_eq_ok.1 h
      cases hfound
      simpa using hn.symm
  · cases h
    rfl

theorem offer_location (hv : env.lookup var = some value) :
    p.offer env (.location name var) =
      if p.has name then .ok [] else
        if value = "" then .error (.noValue name) else .ok [(name, .text value)] := by
  have hsource : ((Parameter.location name var).source.bind fun var => env.lookup var) =
    some value := hv
  unfold offer
  rw [hsource]
  by_cases hhas : p.has name = true
  · rw [if_pos hhas]
    exact if_pos hhas
  · rw [if_neg hhas]
    refine (if_neg hhas).trans ?_
    by_cases hempty : value = ""
    · rw [if_pos hempty]
      simp [Parameter.read, Parameter.location, Shape.read, hempty, bind, Except.bind]
    · rw [if_neg hempty]
      simp [Parameter.read, Parameter.location, Shape.read, hempty, bind, Except.bind, pure,
        Except.pure]

theorem compared_offer (hv : env.lookup var = some value)
    (hnamed : param.name = name → param = .location name var)
    (hsourced : param.source = some var → param = .location name var) :
    Compared name value
      (Supplied name value (p.has name = false ∧ .location name var = param))
      (fun _ => .location name var = param → p.has name = true)
      (p.offer env param) (p.offer (env.unset var) param) := by
  by_cases hparam : .location name var = param
  · subst hparam
    have hwithout : p.offer (env.unset var) (.location name var) = .ok [] := by
      simp [offer, Parameter.location, Environment.lookup_unset_self, pure, Except.pure]
    rw [hwithout, offer_location hv]
    by_cases hhas : p.has name = true
    · rw [if_pos hhas]
      exact .read (.refl rfl (by simp [hhas])) fun _ _ => hhas
    · rw [if_neg hhas]
      by_cases hempty : value = ""
      · rw [if_pos hempty]
        exact .refused hempty fun _ _ h => hhas (h rfl)
      · rw [if_neg hempty]
        refine .read ⟨fun n hn => ?_, rfl, ?_, fun _ => ?_⟩ fun he => absurd he hempty
        · simpa using hn
        · simp [eq_comm]
        · simp
  · have hsource : param.source ≠ some var := fun hs => hparam (hsourced hs).symm
    have hname : param.name ≠ name := fun hn => hparam (hnamed hn).symm
    rw [offer_unset hsource]
    refine .refl fun found hfound => ⟨.refl (lookup_offer hfound hname) ?_, ?_⟩
    · exact fun h => hparam h.2
    · exact fun h => absurd h hparam

theorem compared_offers {options : List Parameter} (hv : env.lookup var = some value)
    (hnamed : ∀ param ∈ options, param.name = name → param = .location name var)
    (hsourced : ∀ param ∈ options, param.source = some var → param = .location name var) :
    Compared name value
      (fun found found' =>
        Supplied name value (p.has name = false ∧ .location name var ∈ options)
          found.flatten found'.flatten)
      (fun _ => .location name var ∈ options → p.has name = true)
      (options.mapM (p.offer env)) (options.mapM (p.offer (env.unset var))) := by
  induction options with
  | nil => exact .read (.refl rfl (by simp)) (by simp)
  | cons param options ih =>
    obtain ⟨hname, hnamed⟩ := List.forall_mem_cons.1 hnamed
    obtain ⟨hsource, hsourced⟩ := List.forall_mem_cons.1 hsourced
    rw [List.mapM_cons, List.mapM_cons]
    refine (compared_offer hv hname hsource).bind (fun found found' _ hfound hfirst => ?_) ?_
    · refine (ih hnamed hsourced).bind (fun rest rest' _ hrest hlater => .read ?_ ?_) ?_
      · refine (hfound.append hrest).mono ?_
        rintro ⟨hhas, hmem⟩
        exact (List.mem_cons.1 hmem).imp (⟨hhas, ·⟩) (⟨hhas, ·⟩)
      · intro hempty hmem
        exact (List.mem_cons.1 hmem).elim (hfirst hempty) (hlater hempty)
      · exact fun _ _ _ _ hwhole hmem => hwhole (List.mem_cons_of_mem _ hmem)
    · exact fun _ _ _ _ hwhole hparam => hwhole (hparam ▸ List.mem_cons_self)

/-- What the variables give for the options of one grammar. -/
theorem compared_fromEnvironment (hg : g.Offers name var) (hv : env.lookup var = some value) :
    Compared name value (Supplied name value (p.has name = false)) (fun _ => p.has name = true)
      (p.fromEnvironment env g) (p.fromEnvironment (env.unset var) g) := by
  rw [fromEnvironment_eq, fromEnvironment_eq]
  refine (compared_offers hv (fun param => hg.named_option) hg.sourced).bind ?_ ?_
  · intro found found' _ hfound hwhole
    exact .read (hfound.mono fun hhas => ⟨hhas, hg.offered⟩) fun hempty => hwhole hempty hg.offered
  · exact fun _ _ _ _ hhas _ => hhas

end Progress

/-! ## Matches -/

namespace Match

/-- The words give the option as a text, and not more often than there are grammars on the way. -/
structure Orderly (name : String) (m : Match) : Prop where
  text : ∀ given, (name, given) ∈ m.given → ∃ s, given = .text s
  often : m.given.countP (·.1 = name) ≤ m.commands.length + 1

/-- The words give the option to the program itself and to each command on the way. -/
def Whole (name : String) (m : Match) : Prop :=
  m.given.countP (·.1 = name) = m.commands.length + 1

/-- A match read with a value for the variable, and one read without. -/
structure Completes (name value : String) (m m' : Match) : Prop where
  commands : m.commands = m'.commands
  given : m.given = m'.given
  environment : Supplied name value (m'.given.lookup name = none) m.environment m'.environment

variable {m m' : Match}

theorem Completes.get?_of_ne (h : Completes name value m m') (hn : n ≠ name) :
    m.get? n = m'.get? n := by
  rw [get?, get?, h.given, h.environment.others n hn]

/-- The value stands in for the option where the words do not give it. -/
theorem Completes.text?_self (h : Completes name value m m') (horderly : m'.Orderly name) :
    m.text? name = (m'.text? name <|> some value) := by
  unfold text? get?
  rw [h.given]
  cases hgiven : m'.given.lookup name with
  | none =>
    rw [h.environment.supplied hgiven, h.environment.unset]
    rfl
  | some given =>
    obtain ⟨s, rfl⟩ := horderly.text given (mem_of_lookup hgiven)
    rfl

theorem Whole.isSome_text? (h : m.Whole name) (horderly : m.Orderly name) :
    (m.text? name).isSome = true := by
  have hpos : 0 < m.given.countP (·.1 = name) := by
    rw [show m.given.countP (·.1 = name) = _ from h]
    exact Nat.succ_pos _
  cases hgiven : m.given.lookup name with
  | none =>
    obtain ⟨entry, hentry, hname⟩ := List.countP_pos_iff.1 hpos
    have hne := bne_iff_ne.1 (List.lookup_eq_none_iff.1 hgiven entry hentry)
    exact absurd (of_decide_eq_true hname).symm hne
  | some given =>
    obtain ⟨s, rfl⟩ := horderly.text given (mem_of_lookup hgiven)
    rw [text?, get?, hgiven]
    rfl

end Match

namespace Progress

variable {env : Environment} {w : String} {m m' : Match}

/-- What has to be in order where no command follows. -/
def complete (g : Grammar) (p : Progress) : Except UsageFault Unit := do
  if g.needsCommand then throw (if p.given.isEmpty then .nothingGiven else .noCommand)
  if let some (a, b) := g.conflicts.find? fun (a, b) => p.has a && p.has b then
    throw (.conflicting a b)
  if let some param := g.needs.find? fun param => !p.has param.name then
    throw (.missing param.name)

theorem finish_none (env : Environment) (g : Grammar) (p : Progress) :
    p.finish env g none = p.settle >>= fun p => p.fromEnvironment env g >>= fun environment =>
      p.complete g >>= fun _ => pure ⟨[], p.given, environment⟩ := by
  unfold finish complete
  congr
  funext p
  congr
  funext environment
  dsimp only
  generalize List.find? _ g.conflicts = pair
  generalize List.find? _ g.needs = param
  cases g.needsCommand
  · cases pair with
    | some pair => rfl
    | none => cases param <;> rfl
  · rfl

theorem finish_none_eq_ok (h : p.finish env g none = .ok m) :
    ∃ q environment, p.settle = .ok q ∧ m = ⟨[], q.given, environment⟩ := by
  rw [finish_none] at h
  obtain ⟨q, hq, h⟩ := bind_eq_ok.1 h
  obtain ⟨environment, -, h⟩ := bind_eq_ok.1 h
  obtain ⟨_, -, h⟩ := bind_eq_ok.1 h
  cases h
  exact ⟨q, environment, hq, rfl⟩

theorem finish_some_eq_ok (h : p.finish env g (some (w, m)) = .ok m') :
    ∃ q environment, p.settle = .ok q ∧
      m' = ⟨w :: m.commands, m.given ++ q.given, m.environment ++ environment⟩ := by
  obtain ⟨q, hq, h⟩ := bind_eq_ok.1 h
  obtain ⟨environment, -, h⟩ := bind_eq_ok.1 h
  cases h
  exact ⟨q, environment, hq, rfl⟩

theorem Orderly.finish_none (h : p.Orderly name var) (hm : p.finish env g none = .ok m) :
    m.Orderly name := by
  obtain ⟨q, environment, hq, rfl⟩ := finish_none_eq_ok hm
  exact ⟨(h.settle hq).text, (h.settle hq).once⟩

theorem Orderly.finish_some (h : p.Orderly name var) (hm : m.Orderly name)
    (hm' : p.finish env g (some (w, m)) = .ok m') :
    m'.Orderly name ∧ (m'.Whole name → m.Whole name) := by
  obtain ⟨q, environment, hq, rfl⟩ := finish_some_eq_ok hm'
  obtain ⟨htext, honce, -⟩ := h.settle hq
  have hoften := hm.often
  refine ⟨⟨fun given hgiven => (List.mem_append.1 hgiven).elim (hm.text given) (htext given), ?_⟩,
    fun hwhole => ?_⟩
  · simp only [List.countP_append, List.length_cons]
    omega
  · simp only [Match.Whole, List.countP_append, List.length_cons] at hwhole ⊢
    omega

/-! ## Readings of the words -/

theorem compared_finish_none (hg : g.Offers name var) (hv : env.lookup var = some value)
    (hp : p.Orderly name var) :
    Compared name value (Match.Completes name value) (Match.Whole name)
      (p.finish env g none) (p.finish (env.unset var) g none) := by
  rw [finish_none, finish_none]
  refine .bind_self fun q hq => ?_
  have hone := (hp.settle hq).countP_eq_one_iff
  refine (compared_fromEnvironment hg hv).bind (fun entries entries' _ hentries hhas => ?_) ?_
  · refine .bind_self fun _ _ => .read ⟨rfl, rfl, ?_⟩ fun hempty => hone.2 (hhas hempty)
    exact hentries.mono fun hnone => by rw [has, hnone, Option.isSome_none]
  · intro entries m _ hm hwhole
    obtain ⟨_, -, hm⟩ := bind_eq_ok.1 hm
    cases hm
    exact hone.1 hwhole

theorem compared_finish_some (hg : g.Offers name var) (hv : env.lookup var = some value)
    (hp : p.Orderly name var) (hm : Match.Completes name value m m') (horderly : m'.Orderly name)
    (hwhole : value = "" → m'.Whole name) :
    Compared name value (Match.Completes name value) (Match.Whole name)
      (p.finish env g (some (w, m))) (p.finish (env.unset var) g (some (w, m'))) := by
  refine .bind_self fun q hq => ?_
  have hone := (hp.settle hq).countP_eq_one_iff
  have honce := (hp.settle hq).once
  have hoften := horderly.often
  refine (compared_fromEnvironment hg hv).bind (fun entries entries' _ hentries hhas => ?_) ?_
  · refine .read ⟨by simp [hm.commands], by simp [hm.given], ?_⟩ fun hempty => ?_
    · refine (hm.environment.append hentries).mono fun hnone => .inl ?_
      exact (Option.or_eq_none_iff.1 (List.lookup_append.symm.trans hnone)).1
    · have hinner : m'.given.countP (·.1 = name) = m'.commands.length + 1 := hwhole hempty
      have houter := hone.2 (hhas hempty)
      simp only [Match.Whole, List.countP_append, List.length_cons]
      omega
  · intro entries all _ hall hwhole
    cases hall
    simp only [Match.Whole, List.countP_append, List.length_cons] at hwhole
    exact hone.1 (by omega)

end Progress

namespace Grammar

variable {env : Environment} {m : Match}

theorem orderly_readFrom (hg : g.Throughout (·.Offers name var)) (hp : p.Orderly name var)
    (hm : g.readFrom env p words = .ok m) : m.Orderly name := by
  induction words generalizing g p m with
  | nil => exact hp.finish_none hm
  | cons w rest ih =>
    obtain ⟨here, below⟩ := hg
    unfold readFrom at hm
    split at hm
    · split at hm
      next command hcommand =>
        obtain ⟨inner, hinner, hm⟩ := bind_eq_ok.1 hm
        have hbelow := below _ (mem_of_lookup hcommand)
        exact (hp.finish_some (ih hbelow (Progress.orderly_start name var) hinner) hm).1
      · cases hm
    · obtain ⟨q, hq, hm⟩ := bind_eq_ok.1 hm
      exact ih ⟨here, below⟩ (hp.word here hq) hm

/-- Whatever the words are, a value for the variable changes nothing but what is said of an option
that is missing. -/
theorem compared_readFrom (hg : g.Throughout (·.Offers name var))
    (hv : env.lookup var = some value) (hp : p.Orderly name var) :
    Compared name value (Match.Completes name value) (Match.Whole name)
      (g.readFrom env p words) (g.readFrom (env.unset var) p words) := by
  induction words generalizing g p with
  | nil =>
    obtain ⟨here, -⟩ := hg
    exact Progress.compared_finish_none here hv hp
  | cons w rest ih =>
    obtain ⟨here, below⟩ := hg
    unfold readFrom
    split
    · cases hcommand : g.commands.lookup w with
      | none => exact .fault _
      | some command =>
        have hbelow := below _ (mem_of_lookup hcommand)
        have hstart := Progress.orderly_start name var
        refine (ih hbelow hstart).bind (fun m m' hm' hm hwhole => ?_) ?_
        · have horderly := orderly_readFrom hbelow hstart hm'
          exact Progress.compared_finish_some here hv hp hm horderly hwhole
        · intro m' all hm' hall
          exact (hp.finish_some (orderly_readFrom hbelow hstart hm') hall).2
    · exact .bind_self fun q hq => ih ⟨here, below⟩ (hp.word here hq)

end Grammar

end Cli
end AdLedger
