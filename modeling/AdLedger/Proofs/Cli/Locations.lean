import AdLedger.Proofs.Cli.Changing
import AdLedger.Proofs.Cli.Variables
import Mathlib

/-!
# Paths that variables give

Where the database and the settings are, with a variable set and with it unset. What to do about a
blank variable is decided too late: by then its value has been taken as the path that was given, or
refused if it is empty (`Place.read_cases`). So the value counts, blank or not, where the words do
not give the path (`Place.path_fill`).
-/

namespace AdLedger.Cli

open Store (Work)

variable {env : Environment} {words : List String} {around : Surroundings}

/-! ## Places -/

/-- What has a place that an option and a variable can give. -/
inductive Place where
  | database
  | settings
  deriving DecidableEq

namespace Place

def option : Place → String
  | database => "db"
  | settings => "config"

def source : Place → String
  | database => "ADH_DB"
  | settings => "ADH_CONFIG"

/-- The path that is given to the program. -/
def given (i : Invocation) : Place → Option String
  | database => i.database
  | settings => i.settings

def path (places : Places) : Place → Option String
  | database => places.database
  | settings => places.settings

/-- Gives a path, if there is one to give, where none is given yet. -/
def fill (place : Place) (value : Option String) (i : Invocation) : Invocation :=
  match place with
  | database => { i with database := i.database <|> value }
  | settings => { i with settings := i.settings <|> value }

/-- The path in the user's own directories. -/
def usual (env : Environment) : Place → Option String
  | database => (Location.userDirectory env "XDG_DATA_HOME" ".local/share").map
      (Location.join · "adh/ad_history.db")
  | settings => (Location.userDirectory env "XDG_CONFIG_HOME" ".config").map
      (Location.join · "adh/config.json")

/-- The variable has a blank value. -/
def Blank (place : Place) (env : Environment) : Prop :=
  ∃ value, env.lookup place.source = some value ∧ Text.allBlank value.toList = true

theorem path_places (place : Place) (i : Invocation) (env : Environment) :
    place.path (i.places env) =
      Location.resolve env (place.given i) place.source (place.usual env) := by
  cases place <;> rfl

theorem fill_none (place : Place) (i : Invocation) : place.fill none i = i := by
  cases place <;> simp [fill]

theorem given_fill (place : Place) (value : Option String) (i : Invocation) :
    place.given (place.fill value i) = (place.given i <|> value) := by
  cases place <;> rfl

end Place

/-- The same surroundings with the variable unset. -/
def Surroundings.without (around : Surroundings) (place : Place) : Surroundings :=
  { around with environment := around.environment.unset place.source }

/-! ## The grammar -/

namespace Invocation

variable {options arguments : List Parameter} {conflicts : List (String × String)}
  {commands : List (String × Grammar)}

theorem offers_of_apart (place : Place)
    (h : ∀ param ∈ options ++ arguments, param.name ≠ place.option ∧
      param.source ≠ some place.source) :
    Grammar.Offers ⟨options ++ sharedOptions, arguments, conflicts, commands⟩ place.option
      place.source := by
  have hshared : ∀ param ∈ sharedOptions,
      (param.name = place.option ∨ param.source = some place.source) →
        param = .location place.option place.source := by
    cases place <;> simp [sharedOptions, Place.option, Place.source, Parameter.location,
      Parameter.switch, Parameter.lettered]
  refine ⟨List.mem_append_right _ ?_, fun param hparam hname => ?_, fun param hparam hsource => ?_⟩
  · cases place <;> simp [sharedOptions, Place.option, Place.source]
  · simp only [List.mem_append] at hparam h
    obtain (hown | hown) | hown := hparam
    · exact absurd hname (h param (.inl hown)).1
    · exact hshared param hown (.inl hname)
    · exact absurd hname (h param (.inr hown)).1
  · obtain hown | hown := List.mem_append.1 hparam
    · exact absurd hsource (h param (List.mem_append_left _ hown)).2
    · exact hshared param hown (.inr hsource)

/-- Every command has both path options. -/
theorem throughout_grammar (place : Place) :
    grammar.Throughout (·.Offers place.option place.source) := by
  have hcommand (options arguments : List Parameter) (conflicts : List (String × String))
      (h : ∀ param ∈ options ++ arguments, param.name ≠ place.option ∧
        param.source ≠ some place.source) :
      (command options arguments conflicts).Throughout (·.Offers place.option place.source) :=
    .intro (offers_of_apart place h) (by simp [command])
  have hconfig : (choice []
      [("show", command [] [] []), ("set", command changeOptions [] [])]).Throughout
        (·.Offers place.option place.source) := by
    refine .intro (offers_of_apart place (by simp)) ?_
    simp only [choice, List.forall_mem_cons, List.not_mem_nil, false_imp_iff, implies_true,
      and_true]
    refine ⟨hcommand _ _ _ (by simp), hcommand _ _ _ ?_⟩
    cases place <;> simp [changeOptions, Parameter.option, Place.option, Place.source]
  refine .intro (offers_of_apart place ?_) ?_
  · cases place <;> simp [Place.option, Place.source]
  · simp only [grammar, choice, List.forall_mem_cons, List.not_mem_nil, false_imp_iff, implies_true,
      and_true]
    refine ⟨hcommand _ _ _ ?_, hcommand _ _ _ ?_, hcommand _ _ _ ?_, hcommand _ _ _ ?_,
      hcommand _ _ _ ?_, hcommand _ _ _ ?_, hcommand _ _ _ ?_, hconfig, hcommand _ _ _ ?_,
      hcommand _ _ _ ?_⟩ <;>
    cases place <;>
      simp [recordOptions, historyOptions, Parameter.option, Parameter.needed, Parameter.switch,
        Parameter.lettered, Place.option, Place.source]

/-! ## Reading -/

variable {place : Place} {value : String} {m m' : Match}

theorem action_congr (hcommands : m.commands = m'.commands)
    (h : ∀ n, n ≠ "db" → n ≠ "config" → m.get? n = m'.get? n) :
    Action.ofMatch? m = Action.ofMatch? m' := by
  have hdraft : Draft.ofMatch? m = Draft.ofMatch? m' := by
    simp (disch := decide) only [Draft.ofMatch?, Match.text?, Match.instant?, h]
  have hperiod : Period.ofMatch m = Period.ofMatch m' := by
    simp (disch := decide) only [Period.ofMatch, Match.number?, Match.instant?, h]
  simp (disch := decide) only [Action.ofMatch?, hcommands, hdraft, hperiod, Match.text?, Match.has,
    Match.number?, h]

/-- What a match asks for. -/
def ofMatch (m : Match) : Except UsageFault Invocation := do
  return {
    action := ← orElse .noCommand (Action.ofMatch? m)
    database := m.text? "db"
    settings := m.text? "config"
    json := m.has "json"
    quiet := m.has "quiet"
    plain := m.has "no-color" }

theorem read_eq (env : Environment) (words : List String) :
    read env words = grammar.read env words >>= ofMatch := rfl

theorem ofMatch_fill (h : Match.Completes place.option value m m')
    (horderly : m'.Orderly place.option) :
    ofMatch m = (ofMatch m').map (place.fill (some value)) := by
  have haction : Action.ofMatch? m = Action.ofMatch? m' := by
    refine action_congr h.commands fun n hdb hconfig => h.get?_of_ne ?_
    cases place <;> assumption
  have hother (n : String) (hn : n ≠ place.option) : m.get? n = m'.get? n := h.get?_of_ne hn
  have hself := h.text?_self horderly
  unfold ofMatch
  rw [haction]
  cases Action.ofMatch? m' with
  | none => rfl
  | some action =>
    cases place with
    | database =>
      have hconfig : m.text? "config" = m'.text? "config" := by
        rw [Match.text?, Match.text?, hother "config" (by decide)]
      have hdb : m.text? "db" = (m'.text? "db" <|> some value) := hself
      simp (disch := decide) only [Match.has, hother, hconfig, hdb]
      rfl
    | settings =>
      have hconfig : m.text? "config" = (m'.text? "config" <|> some value) := hself
      have hdb : m.text? "db" = m'.text? "db" := by
        rw [Match.text?, Match.text?, hother "db" (by decide)]
      simp (disch := decide) only [Match.has, hother, hconfig, hdb]
      rfl

end Invocation

open Invocation (grammar)

namespace Place

variable {place other : Place} {i : Invocation}

/-- The words give the path by its option, to the program itself and to each command on the way. -/
def GivenThroughout (place : Place) (env : Environment) (words : List String) : Prop :=
  ∃ m, grammar.read env words = .ok m ∧ m.Whole place.option

theorem orderly_read {m : Match} (h : grammar.read env words = .ok m) : m.Orderly place.option :=
  Grammar.orderly_readFrom (Invocation.throughout_grammar place)
    (Progress.orderly_start place.option place.source) h

theorem GivenThroughout.isSome_given (h : place.GivenThroughout env words)
    (hi : Invocation.read env words = .ok i) : (place.given i).isSome = true := by
  obtain ⟨m, hm, hwhole⟩ := h
  have hsome := hwhole.isSome_text? (orderly_read hm)
  rw [Invocation.read_eq, hm] at hi
  change Invocation.ofMatch m = .ok i at hi
  obtain ⟨action, -, hi⟩ := Sql.bind_eq_ok.1 hi
  cases hi
  cases place <;> exact hsome

/-- The value of a variable is as good as the option where the words do not give it; only an empty
one is refused, unless the words give the option throughout. -/
theorem read_cases (place : Place) (around : Surroundings) (words : List String) :
    (Invocation.read around.environment words =
        (Invocation.read (around.without place).environment words).map
          (place.fill (around.environment.lookup place.source)) ∧
      (around.environment.lookup place.source = some "" → ∀ i,
        Invocation.read (around.without place).environment words = .ok i →
          place.GivenThroughout (around.without place).environment words)) ∨
    (Invocation.read around.environment words = .error (.noValue place.option) ∧
      around.environment.lookup place.source = some "" ∧
        ¬ place.GivenThroughout (around.without place).environment words) := by
  dsimp only [Surroundings.without]
  generalize around.environment = env
  cases hv : env.lookup place.source with
  | none =>
    rw [Environment.unset_eq_self hv]
    refine .inl ⟨?_, nofun⟩
    cases Invocation.read env words with
    | error fault => rfl
    | ok i => rw [Except.map, fill_none]
  | some value =>
    have hcompared : Compared place.option value (Match.Completes place.option value)
        (Match.Whole place.option) (grammar.readFrom env .start words)
        (grammar.readFrom (env.unset place.source) .start words) :=
      Grammar.compared_readFrom (Invocation.throughout_grammar place) hv
        (Progress.orderly_start place.option place.source)
    generalize hx : grammar.readFrom env .start words = x at hcompared
    generalize hy : grammar.readFrom (env.unset place.source) .start words = y at hcompared
    rw [Invocation.read_eq, Invocation.read_eq, Grammar.read, Grammar.read, hx, hy]
    cases hcompared with
    | fault fault =>
      refine .inl ⟨rfl, fun _ i hi => ?_⟩
      change Except.error fault = Except.ok i at hi
      cases hi
    | refused hempty hno =>
      refine .inr ⟨rfl, congrArg some hempty, ?_⟩
      rintro ⟨m, hm, hwhole⟩
      exact hno m (hy.symm.trans hm) hwhole
    | read h hwhole =>
      refine .inl ⟨Invocation.ofMatch_fill h (orderly_read hy), fun hempty i _ => ?_⟩
      exact ⟨_, hy, hwhole (Option.some.inj hempty)⟩

example : Invocation.read [("ADH_DB", "")] ["version"] = .error (.noValue "db") := by cbv

/-! ## Paths -/

theorem source_inj (h : other.source = place.source) : other = place := by
  cases place <;> cases other <;> simp_all [source]

theorem lookup_unset (place : Place) {n : String} (hdb : n ≠ "ADH_DB")
    (hconfig : n ≠ "ADH_CONFIG") : (env.unset place.source).lookup n = env.lookup n := by
  refine Environment.lookup_unset_of_ne ?_
  cases place <;> assumption

theorem usual_unset (other place : Place) (env : Environment) :
    other.usual (env.unset place.source) = other.usual env := by
  cases other <;> simp [usual, Location.userDirectory, Location.nonEmpty, lookup_unset]

/-- A path in the user's own directories is not blank. -/
theorem not_allBlank_usual {path : String} (h : place.usual env = some path) :
    Text.allBlank path.toList = false := by
  have hjoin (directory file : String) (hfile : Text.allBlank file.toList = false) :
      Text.allBlank (Location.join directory file).toList = false := by
    unfold Text.allBlank at hfile ⊢
    unfold Location.join
    split <;> simp [hfile]
  cases place <;>
  · obtain ⟨directory, -, rfl⟩ := Option.map_eq_some_iff.1 h
    exact hjoin directory _ (by decide)

theorem given_fill_of_ne (h : other ≠ place) (value : Option String) (i : Invocation) :
    other.given (place.fill value i) = other.given i := by
  cases place <;> cases other <;> first | rfl | exact absurd rfl h

/-- The path of the other place is the same whether the variable is set or not. -/
theorem path_of_ne (h : other ≠ place) (value : Option String) (i : Invocation)
    (env : Environment) :
    other.path ((place.fill value i).places env) =
      other.path (i.places (env.unset place.source)) := by
  have hsource : other.source ≠ place.source := fun heq => h (source_inj heq)
  rw [path_places, path_places, given_fill_of_ne h, usual_unset]
  simp only [Location.resolve, Location.nonBlank, Environment.lookup_unset_of_ne hsource]

/-- The path given, else what the variable says, be it blank or not, else the usual one. -/
theorem path_fill (place : Place) (i : Invocation) (env : Environment) :
    place.path ((place.fill (env.lookup place.source) i).places env) =
      (place.given i <|> env.lookup place.source <|> place.usual env) := by
  rw [path_places, given_fill, Location.resolve, Location.nonBlank]
  cases place.given i <;> cases env.lookup place.source <;> rfl

theorem path_unset (place : Place) (i : Invocation) (env : Environment) :
    place.path (i.places (env.unset place.source)) = (place.given i <|> place.usual env) := by
  rw [path_places, usual_unset, Location.resolve, Location.nonBlank,
    Environment.lookup_unset_self]
  rfl

end Place

/-! ## Runs -/

/-- Whether what is to be done needs to know the place. -/
def Action.uses (place : Place) : Action → Bool
  | .rank _ | .version | .completions _ => false
  | .showSettings | .changeSettings _ _ => place = .settings
  | _ => true

theorem Invocation.perform_congr {i i' : Invocation} {env' : Environment}
    (haction : i.action = i'.action)
    (hpath : ∀ place, i.action.uses place = true →
      place.path (i.places around.environment) = place.path (i'.places env')) :
    i.perform around = i'.perform { around with environment := env' } := by
  have hplaces (hall : ∀ place, i.action.uses place = true) :
      i.places around.environment = i'.places env' :=
    congrArg₂ Places.mk (hpath .database (hall _)) (hpath .settings (hall _))
  unfold perform
  rw [← haction]
  cases hi : i.action with
  | showSettings =>
    have hsettings : (i.places around.environment).settings = (i'.places env').settings :=
      hpath .settings (by rw [hi]; rfl)
    dsimp only
    rw [showSettings, showSettings, hsettings]
  | changeSettings retentionDays batchSize =>
    have hsettings : (i.places around.environment).settings = (i'.places env').settings :=
      hpath .settings (by rw [hi]; rfl)
    dsimp only
    rw [changeSettings, changeSettings, hsettings]
  | rank file => rfl
  | version => rfl
  | completions shell => rfl
  | _ => rw [hplaces fun _ => by rw [hi]; rfl]

variable {place : Place}

theorem wanted_unset (place : Place) (env : Environment) (plain terminal : Bool) :
    Style.wanted (env.unset place.source) plain terminal = Style.wanted env plain terminal := by
  have hswitched {n : String} (hdb : n ≠ "ADH_DB") (hconfig : n ≠ "ADH_CONFIG") :
      Style.switchedOn (env.unset place.source) n = Style.switchedOn env n := by
    rw [Style.switchedOn, Style.switchedOn, Place.lookup_unset place hdb hconfig]
  have hforce := hswitched (n := "CLICOLOR_FORCE") (by simp) (by simp)
  have hnever := hswitched (n := "NO_COLOR") (by simp) (by simp)
  have hcolor := hswitched (n := "CLICOLOR") (by simp) (by simp)
  rw [Style.wanted, Style.wanted, hforce, hnever, hcolor]

theorem outcome_fill (place : Place) (value : Option String) (i : Invocation)
    (around : Surroundings) (result : Except Failure Report) :
    (place.fill value i).outcome around result = i.outcome (around.without place) result := by
  cases result with
  | ok report =>
    have hstyled := wanted_unset place around.environment i.plain around.terminal
    cases place <;> exact congrArg
      (fun styled => Outcome.mk 0 (report.render (i.answersInJson around) styled) "") hstyled.symm
  | error failure => cases place <;> rfl

theorem run_without {i : Invocation} {fs : Files}
    (hread : Invocation.read around.environment words =
      .ok (place.fill (around.environment.lookup place.source) i))
    (hunset : Invocation.read (around.without place).environment words = .ok i)
    (hpath : i.action.uses place = true →
      (place.given i <|> around.environment.lookup place.source <|>
          place.usual around.environment) =
        (place.given i <|> place.usual around.environment)) :
    run around words fs = run (around.without place) words fs := by
  have haction (value : Option String) : (place.fill value i).action = i.action := by
    cases place <;> rfl
  have hperform : (place.fill (around.environment.lookup place.source) i).perform around =
      i.perform (around.without place) := by
    refine Invocation.perform_congr (haction _) fun other huses => ?_
    by_cases h : other = place
    · subst h
      rw [haction] at huses
      rw [Place.path_fill, Place.path_unset, hpath huses]
    · exact Place.path_of_ne h _ i _
  rw [run_of_read hread, run_of_read hunset, hperform, outcome_fill]

/-! ## Blank values -/

namespace Place

/-- A blank value is passed over just where the path is given. -/
theorem passes_over_iff (place : Place) (env : Environment) (given : Option String) :
    (given <|> env.lookup place.source <|> place.usual env) =
        (given <|> Location.nonBlank env place.source <|> place.usual env) ↔
      given.isSome = true ∨ ¬ place.Blank env := by
  cases given with
  | some path => exact iff_of_true rfl (.inl rfl)
  | none =>
    unfold Location.nonBlank Blank
    cases hv : env.lookup place.source with
    | none => simp
    | some value =>
      by_cases hblank : Text.allBlank value.toList = true
      · have hne : some value ≠ place.usual env := by
          intro heq
          rw [not_allBlank_usual heq.symm] at hblank
          cases hblank
        simpa [hblank, Option.filter] using hne
      · simp [hblank, Option.filter]

theorem Blank.nonBlank_eq (h : place.Blank env) : Location.nonBlank env place.source = none := by
  obtain ⟨value, hv, hblank⟩ := h
  rw [Location.nonBlank, hv]
  simp [Option.filter, hblank]

/-- What is done about a place, for words that ask for `i` with the variable unset and for `i'` with
whatever value it has. -/
structure Used (place : Place) (around : Surroundings) (words : List String) (i i' : Invocation) :
    Prop where
  /-- The path is the one given, else the value, blank or not, else the usual one. -/
  path : place.path (i'.places around.environment) =
    (place.given i <|> around.environment.lookup place.source <|> place.usual around.environment)
  /-- It is the one given, else a value that is not blank, else the usual one, unless a blank value
  is in the place of the usual one. -/
  preferred_iff : place.path (i'.places around.environment) =
      (place.given i <|> Location.nonBlank around.environment place.source <|>
        place.usual around.environment) ↔
    (place.given i).isSome = true ∨ ¬ place.Blank around.environment
  /-- A blank value is as good as none if the path is given. -/
  unset_iff : place.Blank around.environment →
    (place.path (i'.places around.environment) =
      place.path (i.places (around.without place).environment) ↔ (place.given i).isSome = true)
  /-- And then all of the run is the same, as it is where the path does not matter. -/
  run_eq : (i.action.uses place = true → place.path (i'.places around.environment) =
      place.path (i.places (around.without place).environment)) →
    ∀ fs, run around words fs = run (around.without place) words fs

/-- What words come to where the variable of a place may have a value, against the same words where
it is unset. -/
structure Told (place : Place) (around : Surroundings) (words : List String) : Prop where
  /-- Words that are refused without the variable are refused with it. -/
  fault : ∀ fault, Invocation.read (around.without place).environment words = .error fault →
    Invocation.read around.environment words = .error fault ∨
      around.environment.lookup place.source = some "" ∧
        Invocation.read around.environment words = .error (.noValue place.option)
  /-- An empty value makes others be refused, unless they give the option throughout. -/
  refused : ∀ i, Invocation.read (around.without place).environment words = .ok i →
    around.environment.lookup place.source = some "" →
      ¬ place.GivenThroughout (around.without place).environment words →
        Invocation.read around.environment words = .error (.noValue place.option)
  /-- All others that are accepted without the variable are accepted with it. -/
  used : ∀ i, Invocation.read (around.without place).environment words = .ok i →
    (around.environment.lookup place.source = some "" →
      place.GivenThroughout (around.without place).environment words) →
    ∃ i', Invocation.read around.environment words = .ok i' ∧ place.Used around words i i'
  /-- Words that give the option throughout come to the same whatever the value is. -/
  throughout : place.GivenThroughout (around.without place).environment words →
    ∀ fs, run around words fs = run (around.without place) words fs

theorem used_fill {i : Invocation}
    (hread : Invocation.read around.environment words =
      .ok (place.fill (around.environment.lookup place.source) i))
    (hunset : Invocation.read (around.without place).environment words = .ok i) :
    place.Used around words i (place.fill (around.environment.lookup place.source) i) := by
  have hpath := path_fill place i around.environment
  have hpath' : place.path (i.places (around.without place).environment) = _ :=
    path_unset place i around.environment
  have hpreferred := passes_over_iff place around.environment (place.given i)
  refine ⟨hpath, ?_, fun hblank => ?_, fun hsame fs => run_without hread hunset fun huses => ?_⟩
  · rw [hpath]
    exact hpreferred
  · rw [hblank.nonBlank_eq] at hpreferred
    rw [hpath, hpath']
    simpa [hblank] using hpreferred
  · rw [← hpath, hsame huses, hpath']

theorem run_of_throughout (h : place.GivenThroughout (around.without place).environment words)
    (fs : Files) : run around words fs = run (around.without place) words fs := by
  obtain ⟨hread, -⟩ | ⟨-, -, hnot⟩ := place.read_cases around words
  · cases hi : Invocation.read (around.without place).environment words with
    | error fault =>
      rw [hi] at hread
      rw [run, run, hread, hi]
      rfl
    | ok i =>
      rw [hi] at hread
      refine run_without hread hi fun _ => ?_
      obtain ⟨path, hpath⟩ := Option.isSome_iff_exists.1 (h.isSome_given hi)
      rw [hpath]
      rfl
  · exact absurd h hnot

/-- The value of a variable is taken as the path where the words do not give it, and only an empty
one is refused. So a blank value counts as unset just where the path is given (throughout, if the
value is empty) or where the command does without it. -/
theorem paths_told_by_variables (place : Place) (around : Surroundings) (words : List String) :
    place.Told around words := by
  obtain ⟨hread, hthroughout⟩ | ⟨hread, hempty, hnot⟩ := place.read_cases around words
  · refine ⟨fun fault hfault => .inl ?_, fun i hi hempty hnot => ?_, fun i hi _ => ?_,
      run_of_throughout⟩
    · rw [hread, hfault]
      rfl
    · exact absurd (hthroughout hempty i hi) hnot
    · rw [hi] at hread
      exact ⟨_, hread, used_fill hread hi⟩
  · exact ⟨fun _ _ => .inr ⟨hempty, hread⟩, fun _ _ _ _ => hread,
      fun _ _ hgiven => absurd (hgiven hempty) hnot, run_of_throughout⟩

end Place

/-! ## A blank path -/

section

variable {fs : Files} {database : Option String} {path : String}

theorem showSettings_on {settings : Settings} (h : Settings.load fs path = .ok settings) :
    (showSettings ⟨database, some path⟩).on fs = (.ok (.inUse path settings), fs) := by
  rw [showSettings, Work.on_bind_of_ok (located_on _ fs path),
    Work.on_bind_of_ok (loadSettings_on h)]
  rfl

theorem showSettings_on_of_unreadable {failure : Failure}
    (h : Settings.load fs path = .error failure) :
    (showSettings ⟨database, some path⟩).on fs = (.error failure, fs) := by
  rw [showSettings, Work.on_bind_of_ok (located_on _ fs path),
    Work.on_bind_of_error (loadSettings_on_of_error h)]

end

/-- The variable for the settings holds a space. -/
def spaced : Surroundings := ⟨[("HOME", "/home"), ("ADH_CONFIG", " ")], .epoch, "id", false⟩

/-- A directory whose name is a space. -/
def spaceFolder : Files := ⟨[([" "], .directory)], []⟩

def shown (path : Option String) : Invocation := ⟨.showSettings, none, path, false, false, false⟩

theorem read_spaced : Invocation.read spaced.environment ["config", "show"] = .ok (shown " ") := by
  cbv

theorem read_unspaced : Invocation.read (spaced.without .settings).environment ["config", "show"] =
    .ok (shown none) := by
  cbv

theorem usual_spaced :
    Place.settings.usual spaced.environment = some "/home/.config/adh/config.json" := by
  have hhome : Location.nonEmpty spaced.environment "HOME" = some "/home" := by cbv
  have hunset : Location.nonEmpty spaced.environment "XDG_CONFIG_HOME" = none := by cbv
  have hinner : Location.join "/home" ".config" = "/home/.config" := by cbv
  have hjoin : Location.join "/home/.config" "adh/config.json" =
      "/home/.config/adh/config.json" := by cbv
  rw [Place.usual, Location.userDirectory, hunset, hhome, Option.filter_none, Option.map_some,
    Option.map_some, hinner, hjoin]

theorem load_spaceFolder :
    Settings.load spaceFolder "/home/.config/adh/config.json" = .ok .standard := by
  have hnames : spaceFolder.names "/home/.config/adh/config.json" =
      ([], ["", "home", ".config", "adh", "config.json"]) := by cbv
  have hlocate : spaceFolder.locate "/home/.config/adh/config.json" = .error .missing := by
    rw [Files.locate, if_neg (by simp), hnames]
    rfl
  rw [Settings.load, Files.contains, Files.find, hlocate]
  rfl

/-- A blank value is taken as the path of the settings, which cannot be read there. -/
theorem blank_settings_path_taken :
    Place.settings.Blank spaced.environment ∧
      exitCode (run spaced ["config", "show"] spaceFolder).1 ≠ 0 ∧
      exitCode (run (spaced.without .settings) ["config", "show"] spaceFolder).1 = 0 := by
  have hspace : Settings.load spaceFolder " " =
      .error (.settings (.unreadable FileFault.isDirectory.message)) := by cbv
  have hplaces : (shown none).places (spaced.without .settings).environment =
      ⟨_, some "/home/.config/adh/config.json"⟩ :=
    congrArg (Places.mk _)
      ((Place.path_unset .settings (shown none) spaced.environment).trans usual_spaced)
  have hshow : ((shown none).perform (spaced.without .settings)).on spaceFolder =
      (.ok (.inUse "/home/.config/adh/config.json" .standard), spaceFolder) := by
    change (showSettings _).on spaceFolder = _
    rw [hplaces, showSettings_on load_spaceFolder]
  refine ⟨⟨" ", rfl, by decide⟩, ?_, ?_⟩
  · exact (exitCode_run_ne_zero_iff read_spaced).2 ⟨_, _, showSettings_on_of_unreadable hspace⟩
  · rw [run_of_read read_unspaced, hshow]
    rfl

end AdLedger.Cli
