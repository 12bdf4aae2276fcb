import AdLedger.Files
import Mathlib.Data.List.Basic
import Mathlib.Data.List.Infix

/-!
# Changing trees of files

What is kept elsewhere when something is put under a path or taken away (`node?_put_of_ne`,
`node?_erase_of_ne`). A path leads to the same place as long as directories stay
(`KeepsDirectories.locate`). To make directories takes nothing away (`Grown`), and to take files
away changes nothing but the places that their paths lead to (`Cleared`).
-/

namespace AdLedger.Files

variable {fs mid after : Files} {p q : Path} {node : Node} {path : String}

/-! ## Places -/

/-- Entries are found by their keys also among those whose keys pass a test. -/
theorem lookup_filter_key {α β : Type} [BEq α] [LawfulBEq α] (test : α → Bool) (q : α)
    (entries : List (α × β)) :
    (entries.filter fun e => test e.1).lookup q = if test q then entries.lookup q else none := by
  induction entries with
  | nil => simp
  | cons e rest ih =>
    obtain ⟨p, value⟩ := e
    by_cases hq : q = p
    · subst hq
      cases ht : test q <;> simp [ht, ih]
    · have hb : (q == p) = false := beq_eq_false_iff_ne.2 hq
      cases ht : test p <;> simp [ht, List.lookup_cons, hb, ih]

theorem lookup_nodes_erase (fs : Files) (p q : Path) :
    (fs.erase p).nodes.lookup q = if q = p then none else fs.nodes.lookup q := by
  have hfilter := lookup_filter_key (fun r => decide (r ≠ p)) q fs.nodes
  rw [erase, hfilter]
  by_cases h : q = p <;> simp [h]

@[simp] theorem node?_root (fs : Files) : fs.node? [] = some .directory := rfl

theorem node?_erase_of_ne (h : q ≠ p) : (fs.erase p).node? q = fs.node? q := by
  unfold node?
  rw [lookup_nodes_erase, if_neg h]

theorem node?_erase_self (h : p ≠ []) : (fs.erase p).node? p = none := by
  unfold node?
  rw [lookup_nodes_erase, if_pos rfl]
  simp [h]

theorem node?_put_of_ne (h : q ≠ p) : (fs.put p node).node? q = fs.node? q := by
  have herase : (fs.erase p).node? q = fs.node? q := node?_erase_of_ne h
  rw [← herase]
  have hb : (q == p) = false := beq_eq_false_iff_ne.2 h
  unfold node? put
  rw [List.lookup_append]
  simp only [List.lookup_cons, hb, List.lookup_nil, Option.or_none]
  rfl

theorem ne_of_isDirectory (hq : fs.isDirectory q = true) (hp : fs.isDirectory p = false) :
    q ≠ p := by
  rintro rfl
  exact Bool.false_ne_true (hp.symm.trans hq)

theorem ne_nil_of_isDirectory_eq_false (h : fs.isDirectory p = false) : p ≠ [] :=
  (ne_of_isDirectory (by simp [isDirectory]) h).symm

theorem isDirectory_eq_false (h : fs.node? p = some node) (hn : node ≠ .directory) :
    fs.isDirectory p = false := by
  simp [isDirectory, h, hn]

/-- What is kept under a path already can be kept there again. -/
theorem put_put_self (fs : Files) (p : Path) (node : Node) :
    (fs.put p node).put p node = fs.put p node := by
  simp [put, List.filter_append, List.filter_filter]

/-! ## Following a path -/

/-- The place that a name leads to from a directory. -/
def enter (start : Path) (name : String) : Path :=
  if name = "" ∨ name = "." then start
  else if name = ".." then start.dropLast
  else start ++ [name]

/-- Every name but the last has to lead to a directory, and the first one begins at one. -/
theorem follow_cons_eq_ok {start : Path} {name : String} {rest : List String} :
    fs.follow start (name :: rest) = .ok p ↔
      fs.isDirectory start = true ∧ fs.follow (enter start name) rest = .ok p := by
  rw [follow, enter]
  by_cases hd : fs.isDirectory start = true
  · have hsome : (fs.node? start).isNone = false := by
      rw [show fs.node? start = some .directory by simpa [isDirectory] using hd]
      rfl
    simp only [hd, hsome, Bool.not_true, Bool.false_eq_true, if_false, true_and]
    split
    · rfl
    · split <;> rfl
  · simp only [hd, Bool.not_false, if_true, Bool.false_eq_true, false_and, iff_false]
    split <;> exact nofun

theorem follow_append_eq_ok {start : Path} {names more : List String} :
    fs.follow start (names ++ more) = .ok p ↔
      ∃ r, fs.follow start names = .ok r ∧ fs.follow r more = .ok p := by
  induction names generalizing start with
  | nil => simp [follow]
  | cons name names ih =>
    rw [List.cons_append, follow_cons_eq_ok, ih]
    simp only [follow_cons_eq_ok, and_assoc, exists_and_left]

theorem find_eq_ok : fs.find path = .ok (p, node) ↔
    fs.locate path = .ok p ∧ fs.node? p = some node := by
  unfold find
  cases hl : fs.locate path with
  | error fault => simp [bind, Except.bind]
  | ok r =>
    simp only [bind, Except.bind]
    cases hn : fs.node? r with
    | none =>
      simp only [throw, throwThe, MonadExceptOf.throw, reduceCtorEq, Except.ok.injEq, false_iff]
      rintro ⟨rfl, h⟩
      cases hn.symm.trans h
    | some m =>
      simp only [pure, Except.pure, Except.ok.injEq, Prod.mk.injEq]
      constructor
      · rintro ⟨rfl, rfl⟩
        exact ⟨rfl, hn⟩
      · rintro ⟨rfl, h⟩
        exact ⟨rfl, Option.some.inj (hn.symm.trans h)⟩

theorem contains_iff : fs.contains path = true ↔
    ∃ p node, fs.locate path = .ok p ∧ fs.node? p = some node := by
  unfold contains
  cases hf : fs.find path with
  | error fault =>
    simp only [Except.toBool, Bool.false_eq_true, false_iff]
    rintro ⟨p, node, h⟩
    cases hf.symm.trans (find_eq_ok.2 h)
  | ok r => exact ⟨fun _ => ⟨r.1, r.2, find_eq_ok.1 hf⟩, fun _ => rfl⟩

/-- Anything can be kept where no directory is, in a directory that exists. -/
theorem write_eq_ok : fs.write path node = .ok after ↔
    ∃ p, fs.locate path = .ok p ∧ fs.isDirectory p = false ∧ fs.isDirectory p.dropLast = true ∧
      after = fs.put p node := by
  unfold write
  cases hl : fs.locate path with
  | error fault => exact iff_of_false nofun nofun
  | ok p =>
    simp only [bind, Except.bind, throw, throwThe, MonadExceptOf.throw, Except.ok.injEq,
      exists_eq_left']
    cases hd : fs.isDirectory p <;> cases hp : fs.isDirectory p.dropLast <;>
      simp [pure, Except.pure, eq_comm]

theorem read_eq_ok {content : String} : fs.read path = .ok content ↔
    ∃ p, fs.locate path = .ok p ∧ fs.node? p = some (.text content) := by
  unfold read
  cases hf : fs.find path with
  | error fault =>
    simp only [bind, Except.bind, reduceCtorEq, false_iff]
    rintro ⟨p, h⟩
    cases hf.symm.trans (find_eq_ok.2 h)
  | ok found =>
    obtain ⟨hl, hn⟩ := find_eq_ok.1 hf
    simp only [bind, Except.bind, hl, Except.ok.injEq, exists_eq_left', hn, Option.some.injEq]
    cases found.2 <;> simp [throw, throwThe, MonadExceptOf.throw, pure, Except.pure]

/-- Whatever a path leads to can be taken away if it is not a directory. -/
theorem remove_eq_ok : fs.remove path = .ok after ↔
    ∃ p node, fs.locate path = .ok p ∧ fs.node? p = some node ∧ node ≠ .directory ∧
      after = fs.erase p := by
  unfold remove
  cases hf : fs.find path with
  | error fault =>
    simp only [bind, Except.bind, reduceCtorEq, false_iff]
    rintro ⟨p, node, hl, hn, -⟩
    cases hf.symm.trans (find_eq_ok.2 ⟨hl, hn⟩)
  | ok r =>
    obtain ⟨hl, hn⟩ := find_eq_ok.1 hf
    simp only [bind, Except.bind, throw, throwThe, MonadExceptOf.throw]
    split
    next hd =>
      simp only [reduceCtorEq, false_iff]
      rintro ⟨p, node, hl', hn', hne, -⟩
      cases hl.symm.trans hl'
      exact hne ((Option.some.inj (hn'.symm.trans hn)).trans hd)
    next hd =>
      constructor
      · intro h
        cases h
        exact ⟨r.1, r.2, hl, hn, hd, rfl⟩
      · rintro ⟨p, node, hl', -, -, rfl⟩
        cases hl.symm.trans hl'
        rfl

/-! ## Directories that stay -/

/-- Directories stay, and paths are read from the same one. -/
structure KeepsDirectories (fs after : Files) : Prop where
  directory : ∀ p, fs.isDirectory p = true → after.isDirectory p = true
  workingDirectory : after.workingDirectory = fs.workingDirectory

namespace KeepsDirectories

theorem refl (fs : Files) : fs.KeepsDirectories fs := ⟨fun _ h => h, rfl⟩

theorem trans (h : fs.KeepsDirectories mid) (h' : mid.KeepsDirectories after) :
    fs.KeepsDirectories after :=
  ⟨fun p hp => h'.directory p (h.directory p hp), h'.workingDirectory.trans h.workingDirectory⟩

theorem follow (h : fs.KeepsDirectories after) {start : Path} {names : List String}
    (hf : fs.follow start names = .ok p) : after.follow start names = .ok p := by
  induction names generalizing start with
  | nil => exact hf
  | cons name names ih =>
    rw [follow_cons_eq_ok] at hf ⊢
    exact ⟨h.directory start hf.1, ih hf.2⟩

/-- A path leads to the same place as before. -/
theorem locate (h : fs.KeepsDirectories after) (hl : fs.locate path = .ok p) :
    after.locate path = .ok p := by
  unfold Files.locate at hl ⊢
  by_cases he : path.isEmpty = true
  · rw [if_pos he] at hl
    cases hl
  · rw [if_neg he] at hl ⊢
    simp only [names, h.workingDirectory] at hl ⊢
    exact h.follow hl

end KeepsDirectories

theorem keepsDirectories_put (h : fs.isDirectory p = false) :
    fs.KeepsDirectories (fs.put p node) := by
  refine ⟨fun q hq => ?_, rfl⟩
  rwa [isDirectory, node?_put_of_ne (ne_of_isDirectory hq h)]

theorem keepsDirectories_erase (h : fs.isDirectory p = false) :
    fs.KeepsDirectories (fs.erase p) := by
  refine ⟨fun q hq => ?_, rfl⟩
  rwa [isDirectory, node?_erase_of_ne (ne_of_isDirectory hq h)]

/-! ## Directories that are made -/

/-- Nothing has happened but that directories have been made. -/
structure Grown (fs after : Files) : Prop where
  node : ∀ p, after.node? p = fs.node? p ∨
    fs.node? p = none ∧ after.node? p = some .directory
  workingDirectory : after.workingDirectory = fs.workingDirectory

namespace Grown

theorem refl (fs : Files) : fs.Grown fs := ⟨fun _ => .inl rfl, rfl⟩

theorem trans (h : fs.Grown mid) (h' : mid.Grown after) : fs.Grown after := by
  refine ⟨fun p => ?_, h'.workingDirectory.trans h.workingDirectory⟩
  obtain hn | ⟨hnone, hd⟩ := h.node p <;> obtain hn' | ⟨hnone', hd'⟩ := h'.node p
  · exact .inl (hn'.trans hn)
  · exact .inr ⟨hn.symm.trans hnone', hd'⟩
  · exact .inr ⟨hnone, hn'.trans hd⟩
  · cases hd.symm.trans hnone'

theorem keepsDirectories (h : fs.Grown after) : fs.KeepsDirectories after := by
  refine ⟨fun p hp => ?_, h.workingDirectory⟩
  unfold isDirectory at hp ⊢
  obtain hn | ⟨-, hd⟩ := h.node p
  · rwa [hn]
  · simp [hd]

end Grown

theorem grown_put (h : fs.node? p = none) : fs.Grown (fs.put p .directory) := by
  have hne : p ≠ [] := by
    rintro rfl
    cases h
  refine ⟨fun q => ?_, rfl⟩
  by_cases hq : q = p
  · rw [hq]
    exact .inr ⟨h, node?_put_self _ hne⟩
  · exact .inl (node?_put_of_ne hq)

theorem grown_makeAll {start : Path} {names : List String}
    (h : fs.makeAll start names = .ok after) : fs.Grown after := by
  induction names generalizing fs start with
  | nil =>
    cases h
    exact .refl _
  | cons name names ih =>
    rw [makeAll] at h
    split at h
    · exact ih h
    · split at h
      · exact ih h
      · dsimp only at h
        split at h
        · exact ih h
        · cases h
        next hnone => exact (grown_put hnone).trans (ih h)

/-- A directory that is there is not made but entered. -/
theorem makeAll_cons_of_isDirectory {start : Path} {name : String} {names : List String}
    (hstay : ¬ (name = "" ∨ name = ".")) (hup : ¬ name = "..")
    (hd : fs.isDirectory (start ++ [name]) = true) :
    fs.makeAll start (name :: names) = fs.makeAll (start ++ [name]) names := by
  rw [makeAll, if_neg hstay, if_neg hup]
  dsimp only
  rw [of_decide_eq_true hd]

/-- Where directories have been made and stay, there are none to make. -/
theorem makeAll_again {start : Path} {names : List String} (h : fs.makeAll start names = .ok mid)
    (hk : mid.KeepsDirectories after) : after.makeAll start names = .ok after := by
  induction names generalizing fs start with
  | nil => rfl
  | cons name names ih =>
    have enter {made : Files} (hstay : ¬ (name = "" ∨ name = ".")) (hup : ¬ name = "..")
        (hmade : made.makeAll (start ++ [name]) names = .ok mid)
        (hd : made.isDirectory (start ++ [name]) = true) :
        after.makeAll start (name :: names) = .ok after := by
      have hdirectory := hk.directory _ ((grown_makeAll hmade).keepsDirectories.directory _ hd)
      rw [makeAll_cons_of_isDirectory hstay hup hdirectory]
      exact ih hmade
    rw [makeAll] at h
    split at h
    next hstay =>
      rw [makeAll, if_pos hstay]
      exact ih h
    next hstay =>
      split at h
      next hup =>
        rw [makeAll, if_neg hstay, if_pos hup]
        exact ih h
      next hup =>
        dsimp only at h
        split at h
        next hd => exact enter hstay hup h (decide_eq_true hd)
        · cases h
        · exact enter hstay hup h (decide_eq_true (node?_put_self _ (by simp)))

theorem makeDirectories_again (h : fs.makeDirectories path = .ok mid)
    (hk : mid.KeepsDirectories after) : after.makeDirectories path = .ok after := by
  have hworking : after.workingDirectory = fs.workingDirectory :=
    hk.workingDirectory.trans (grown_makeAll h).workingDirectory
  unfold makeDirectories names at h ⊢
  rw [hworking]
  exact makeAll_again h hk

/-! ## Files that are taken away -/

/-- Nothing has happened but that files have been taken away where some paths lead to. -/
structure Cleared (paths : List String) (fs after : Files) : Prop where
  directories : fs.KeepsDirectories after
  node : ∀ p, (∀ path ∈ paths, after.locate path ≠ .ok p) → after.node? p = fs.node? p

namespace Cleared

variable {paths : List String}

theorem refl (paths : List String) (fs : Files) : Cleared paths fs fs := ⟨.refl fs, fun _ _ => rfl⟩

theorem trans (h : Cleared paths fs mid) (h' : Cleared paths mid after) :
    Cleared paths fs after := by
  refine ⟨h.directories.trans h'.directories, fun p hp => ?_⟩
  rw [h'.node p hp]
  exact h.node p fun path hpath hl => hp path hpath (h'.directories.locate hl)

end Cleared

theorem cleared_remove {paths : List String} (hp : path ∈ paths) (h : fs.remove path = .ok after) :
    Cleared paths fs after := by
  obtain ⟨p, node, hl, hn, hd, rfl⟩ := remove_eq_ok.1 h
  have hkeeps := keepsDirectories_erase (isDirectory_eq_false hn hd)
  refine ⟨hkeeps, fun q hq => node?_erase_of_ne ?_⟩
  rintro rfl
  exact hq path hp (hkeeps.locate hl)

/-! ## Paths with an ending -/

theorem splitOn_append {ending : List Char} (h : '/' ∉ ending) (xs : List Char) :
    ∃ names last, xs.splitOn '/' = names ++ [last] ∧
      (xs ++ ending).splitOn '/' = names ++ [last ++ ending] := by
  induction xs with
  | nil => exact ⟨[], [], by simp, by simpa using List.splitOn_eq_singleton h⟩
  | cons c xs ih =>
    obtain ⟨names, last, hxs, happend⟩ := ih
    by_cases hc : c = '/'
    · refine ⟨[] :: names, last, ?_, ?_⟩
      · simp [List.splitOn_cons_eq_if_modifyHead, hc, hxs]
      · simp [List.splitOn_cons_eq_if_modifyHead, hc, happend]
    · cases names with
      | nil =>
        refine ⟨[], c :: last, ?_, ?_⟩
        · simp [List.splitOn_cons_eq_if_modifyHead, hc, hxs]
        · simp [List.splitOn_cons_eq_if_modifyHead, hc, happend]
      | cons name names =>
        refine ⟨(c :: name) :: names, last, ?_, ?_⟩
        · simp [List.splitOn_cons_eq_if_modifyHead, hc, hxs]
        · simp [List.splitOn_cons_eq_if_modifyHead, hc, happend]

/-- An ending without a slash goes to the last name in a path. -/
theorem pieces_append {ending : String} (h : '/' ∉ ending.toList) (path : String) :
    ∃ names last, pieces path = names ++ [last] ∧
      pieces (path ++ ending) = names ++ [last ++ ending] := by
  obtain ⟨names, last, hpath, happend⟩ := splitOn_append h path.toList
  refine ⟨names.map String.ofList, String.ofList last, ?_, ?_⟩
  · simp [pieces, hpath]
  · simp [pieces, happend, String.toList_append, String.ofList_append]

theorem startsWith_append {ending : String} (hp : path.isEmpty = false) :
    (path ++ ending).startsWith "/" = path.startsWith "/" := by
  have hne : path.toList ≠ [] := by
    intro hnil
    rw [String.toList_eq_nil_iff.1 hnil] at hp
    cases hp
  obtain ⟨c, cs, hcs⟩ := List.exists_cons_of_ne_nil hne
  rw [Bool.eq_iff_iff, String.startsWith_string_iff, String.startsWith_string_iff,
    String.toList_append, hcs, show "/".toList = ['/'] from rfl]
  simp

theorem ne_of_long {name other : String} (h : other.length < name.length) : name ≠ other := by
  rintro rfl
  exact lt_irrefl _ h

theorem enter_of_long {name : String} (h : 2 < name.length) (start : Path) :
    enter start name = start ++ [name] := by
  have hempty : name ≠ "" := ne_of_long (show 0 < _ by omega)
  have hdot : name ≠ "." := ne_of_long (show 1 < _ by omega)
  have hdots : name ≠ ".." := ne_of_long h
  rw [enter, if_neg (by simp [hempty, hdot]), if_neg hdots]

/-- A path with an ending leads elsewhere, if the ending is too long for the name of a directory
above. -/
theorem locate_append_ne {ending : String} (h : '/' ∉ ending.toList) (hlen : 2 < ending.length)
    (hl : fs.locate path = .ok p) : fs.locate (path ++ ending) ≠ .ok p := by
  intro hl'
  have hpath : path.isEmpty = false := by
    by_contra he
    rw [locate, if_pos (by simpa using he)] at hl
    cases hl
  have happend : (path ++ ending).isEmpty = false := by
    rw [Bool.eq_false_iff, ne_eq, String.isEmpty_iff]
    exact ne_of_long (show 0 < (path ++ ending).length by rw [String.length_append]; omega)
  obtain ⟨names, last, hpieces, hpieces'⟩ := pieces_append h path
  simp only [locate, Files.names, hpath, happend, startsWith_append hpath, hpieces, hpieces',
    Bool.false_eq_true, if_false] at hl hl'
  obtain ⟨r, hr, hlast⟩ := follow_append_eq_ok.1 hl
  obtain ⟨r', hr', hlast'⟩ := follow_append_eq_ok.1 hl'
  cases hr.symm.trans hr'
  obtain ⟨-, hlast⟩ := follow_cons_eq_ok.1 hlast
  obtain ⟨-, hlast'⟩ := follow_cons_eq_ok.1 hlast'
  cases hlast
  have hlong : 2 < (last ++ ending).length := by
    rw [String.length_append]
    omega
  have henter : r ++ [last ++ ending] = enter r last :=
    (enter_of_long hlong r).symm.trans (Except.ok.inj hlast')
  unfold enter at henter
  split at henter
  · have hlength := congrArg List.length henter
    simp at hlength
  · split at henter
    · have hlength := congrArg List.length henter
      simp only [List.length_append, List.length_cons, List.length_nil,
        List.length_dropLast] at hlength
      omega
    · have hlength := congrArg String.length (List.cons.inj (List.append_cancel_left henter)).1
      rw [String.length_append] at hlength
      omega

end AdLedger.Files
