import AdLedger.Proofs.Bucket.Rearranging
import AdLedger.Proofs.Cli.Export

/-!
# Candidates that are ranked

A ranking tells which candidates of a file are the best ones, their priority, and how many positive
priorities there are (`Tells`). The document that is printed of it is read again as just that
(`printedRanking?_ranked`).
-/

namespace AdLedger

open Bucket

/-! ## Candidates through their documents -/

namespace Candidate

theorem composed_toJson (c : Candidate) : c.toJson.Composed := by
  refine .record ?_
  simp only [List.forall_mem_cons]
  exact ⟨.string _, .string _, .nat _, nofun⟩

/-- A candidate is read from its document where its priority is in bounds. -/
theorem ofJson?_toJson {c : Candidate} (h : c.priority < UInt32.size) :
    ofJson? c.toJson = some c := by
  have hfields : c.toJson.fields? ["creative_instance_id", "segment", "priority"] =
      some [some (.ofString c.creativeInstanceId), some (.ofString c.segment),
        some (.ofNat c.priority)] :=
    Json.fields?_record (by simp) fun _ hm => hm
  have hpriority : (Json.ofNat c.priority).nat?.filter (· < UInt32.size) = some c.priority := by
    simp [Json.nat?, Json.ofNat, h]
  rw [ofJson?, hfields]
  simp [Item.string?_ofString, hpriority]

theorem composed_array (candidates : List Candidate) :
    (Json.array (candidates.map toJson)).Composed := by
  refine .array fun j hj => ?_
  obtain ⟨c, -, rfl⟩ := List.mem_map.1 hj
  exact c.composed_toJson

theorem mapM_ofJson? {candidates : List Candidate}
    (h : ∀ c ∈ candidates, c.priority < UInt32.size) :
    (candidates.map toJson).mapM ofJson? = some candidates :=
  Json.mapM_map_eq_self fun c hc => ofJson?_toJson (h c hc)

/-- Candidates are read from the array of their documents. -/
theorem readAll?_line {candidates : List Candidate}
    (h : ∀ c ∈ candidates, c.priority < UInt32.size) :
    readAll? (Json.array (candidates.map toJson)).line = some candidates := by
  rw [readAll?, (composed_array candidates).read?_line.1]
  exact mapM_ofJson? h

theorem lt_size_of_ofJson? {j : Json} {c : Candidate} (h : ofJson? j = some c) :
    c.priority < UInt32.size := by
  obtain ⟨values, -, h⟩ := Option.bind_eq_some_iff.1 h
  split at h
  next =>
    obtain ⟨_, -, h⟩ := Option.bind_eq_some_iff.1 h
    obtain ⟨_, -, h⟩ := Option.bind_eq_some_iff.1 h
    obtain ⟨n, hn, h⟩ := Option.bind_eq_some_iff.1 h
    cases h
    exact of_decide_eq_true (Option.filter_eq_some_iff.1 hn).2
  next => cases h

theorem lt_size_of_readAll? {content : String} {candidates : List Candidate}
    (h : readAll? content = some candidates) : ∀ c ∈ candidates, c.priority < UInt32.size := by
  obtain ⟨document, -, h⟩ := Option.bind_eq_some_iff.1 h
  obtain ⟨elements, -, h⟩ := Option.bind_eq_some_iff.1 h
  intro c hc
  have hmem : some c ∈ elements.map ofJson? := by
    rw [Json.mapM_eq_some_iff.1 h]
    exact List.mem_map_of_mem hc
  obtain ⟨j, -, hj⟩ := List.mem_map.1 hmem
  exact lt_size_of_ofJson? hj

end Candidate

namespace Cli

open Store (Work)

variable {fs : Files} {file content : String} {candidates : List Candidate}

/-! ## What is printed -/

/-- A number that may be missing. -/
def optionalNat? : Json → Option (Option Nat)
  | .null => some none
  | j => j.nat?.map some

/-- The priority, the number of buckets and the candidates in what was printed of a ranking. -/
def printedRanking? (printed : String) : Option (Option Nat × Nat × List Candidate) := do
  match ← (← Json.read? printed).fields? ["priority", "buckets", "creative_ads"] with
  | [some priority, some buckets, some best] =>
    return (← optionalNat? priority, ← buckets.nat?, ← (← best.items?).mapM Candidate.ofJson?)
  | _ => none

theorem optionalNat?_ofOption (n : Option Nat) :
    optionalNat? (.ofOption (n.map .ofNat)) = some n := by
  cases n with
  | none => rfl
  | some n => simp [Json.ofOption, optionalNat?, Json.ofNat, Json.nat?]

theorem printedRanking?_ranked (buckets : Nat) {best : List Candidate}
    (h : ∀ c ∈ best, c.priority < UInt32.size) (styled : Bool) :
    printedRanking? (Report.render true styled (.ranked buckets best)) =
      some (Report.priority? best, buckets, best) := by
  let members := [("priority", Json.ofOption ((Report.priority? best).map .ofNat)),
    ("buckets", .ofNat buckets), ("creative_ads", .array (best.map Candidate.toJson))]
  have hpriority : (Json.ofOption ((Report.priority? best).map .ofNat)).Composed := by
    cases Report.priority? best with
    | none => exact .null
    | some n => exact .nat n
  have hcomposed : (Json.record members).Composed := by
    refine .record ?_
    simp only [members, List.forall_mem_cons]
    exact ⟨hpriority, .nat buckets, Candidate.composed_array best, nofun⟩
  have hread : Json.read? (Report.render true styled (.ranked buckets best)) =
      some (.record members) := read?_render rfl hcomposed styled
  have hfields : (Json.record members).fields? ["priority", "buckets", "creative_ads"] =
      some (members.map fun m => some m.2) :=
    Json.fields?_record (by simp [members]) fun _ hm => hm
  have hbuckets : (Json.ofNat buckets).nat? = some buckets := by simp [Json.nat?, Json.ofNat]
  rw [printedRanking?, hread, Option.bind_eq_bind, Option.bind_some, hfields]
  simp [members, optionalNat?_ofOption, hbuckets, Json.items?, Candidate.mapM_ofJson? h]

/-- The first line that is printed of a ranking. -/
def headline (style : Style → String → String) (buckets : Nat) (best : List Candidate) :
    Option Nat → String
  | none => "No eligible creative ads."
  | some least =>
    let counts := s!"{Text.natural best.length} creative ad(s), {Text.natural buckets} bucket(s)"
    style .heading ("Priority " ++ Text.natural least) ++ ": " ++ counts ++ " in total"

theorem head?_rankedLines (style : Style → String → String) (buckets : Nat)
    (best : List Candidate) :
    (Report.rankedLines style buckets best).head? =
      some (headline style buckets best (Report.priority? best)) := by
  unfold Report.rankedLines
  cases Report.priority? best <;> rfl

/-! ## Ranking -/

/-- A report tells which candidates are of the least positive priority, which one this is, and how
many positive priorities there are; so do the document and the first of the lines that are printed
of it. -/
def Tells (candidates : List Candidate) (report : Report) : Prop :=
  let buckets := (priorities Candidate.priority candidates).card
  ∃ best least, Best Candidate.priority candidates best least ∧
    report = .ranked buckets best ∧ Report.priority? best = least ∧
    (∀ styled, printedRanking? (report.render true styled) = some (least, buckets, best)) ∧
    ∀ style, (report.lines style).head? = some (headline style buckets best least)

theorem mem_of_mem_best {best : List Candidate} {least : Option Nat}
    (h : Best Candidate.priority candidates best least) : ∀ c ∈ best, c ∈ candidates := by
  intro c hc
  cases least with
  | none =>
    rw [h.2] at hc
    cases hc
  | some least =>
    rw [h.2] at hc
    exact (List.mem_filter.1 hc).1

theorem rank_on (hr : fs.read file = .ok content)
    (hc : Candidate.readAll? content = some candidates) :
    ∃ report, (rank file).on fs = (.ok report, fs) ∧ Tells candidates report := by
  let best := highest Candidate.priority candidates
  have hbest : Best Candidate.priority candidates best (Report.priority? best) := best_highest _ _
  have hbuckets : (sort Candidate.priority candidates).length =
      (priorities Candidate.priority candidates).card := by
    rw [← Finset.length_sort (· ≤ ·), ← (sorts_sort _ _).keys, List.length_map]
  refine ⟨.ranked (priorities Candidate.priority candidates).card best, ?_, best, _, hbest, rfl,
    rfl, fun styled => ?_, fun style => head?_rankedLines style _ best⟩
  · rw [rank, Work.on_bind_of_ok (ask_on_eq_ok_iff.2 ⟨hr, rfl⟩), hc, ← hbuckets]
    rfl
  · have hlt := Candidate.lt_size_of_readAll? hc
    exact printedRanking?_ranked _ (fun c hc => hlt c (mem_of_mem_best hbest c hc)) styled

/-- Candidates of each positive priority are in the bucket of this priority, those of the least one
are the best ones, and changes of candidates of priority 0, or of the order of candidates of
different priorities, are exactly those that make no difference. A ranking of the candidates in a
file tells the best ones. -/
theorem candidates_ranked :
    (∀ (α : Type) [DecidableEq α] (priority : α → Nat) (xs : List α),
      Grouped priority xs (sort priority xs) ∧
      ∃ least, Best priority xs (highest priority xs) least) ∧
    (∀ (α : Type) (priority : α → Nat) (xs ys : List α),
      (sort priority xs = sort priority ys ↔ Rearranged priority xs ys) ∧
      (Rearranged priority xs ys → highest priority xs = highest priority ys)) ∧
    ∀ fs file content candidates, Files.read fs file = .ok content →
      Candidate.readAll? content = some candidates →
      ∃ report, (rank file).on fs = (.ok report, fs) ∧ Tells candidates report := by
  refine ⟨?_, ?_, ?_⟩
  · intro α _ priority xs
    exact ⟨(sorts_sort priority xs).grouped, _, best_highest priority xs⟩
  · intro α priority xs ys
    refine ⟨sort_eq_sort_iff, fun h => ?_⟩
    unfold highest
    rw [sort_eq_sort_iff.2 h]
  · intro fs file content candidates hr hc
    exact rank_on hr hc

/-- Of three candidates, one of priority 0 and the other two not in the order of their priorities,
the last is the best. -/
theorem third_candidate_ranked :
    let a : Candidate := ⟨"a", "sports", 2⟩
    let b : Candidate := ⟨"b", Candidate.untargeted, 0⟩
    let c : Candidate := ⟨"c", Candidate.untargeted, 1⟩
    let fs := besideEvents (.text "") (Json.array ([a, b, c].map Candidate.toJson)).line
    ∃ report, (rank "events.json").on fs = (.ok report, fs) ∧
      printedRanking? (report.render true false) = some (some 1, 2, [c]) ∧
      Rearranged Candidate.priority [a, b, c] [c, a] ∧
      highest Candidate.priority [a, b, c] = highest Candidate.priority [c, a] := by
  intro a b c fs
  obtain ⟨-, hrearranged, hrank⟩ := candidates_ranked
  have hread : Candidate.readAll? (Json.array ([a, b, c].map Candidate.toJson)).line =
      some [a, b, c] := Candidate.readAll?_line (by decide)
  obtain ⟨report, hon, best, least, hbest, -, -, hprinted, -⟩ := hrank fs "events.json" _
    [a, b, c] (read_besideEvents _ _) hread
  have hpriorities : priorities Candidate.priority [a, b, c] = {1, 2} := by decide
  have hchanges : Rearranged Candidate.priority [a, b, c] [c, a] :=
    (Change.remove [a] [c] rfl).rearranged.trans (Change.swap [] [] (by decide)).rearranged
  refine ⟨report, hon, ?_, hchanges, (hrearranged Candidate Candidate.priority _ _).2 hchanges⟩
  rw [hprinted false, hpriorities]
  cases least with
  | none => exact absurd (hpriorities.symm.trans hbest.1) (by decide)
  | some least =>
    obtain ⟨hleast, rfl⟩ := hbest
    have hone : IsLeast (priorities Candidate.priority [a, b, c] : Set Nat) 1 := by
      rw [hpriorities]
      simp [IsLeast, lowerBounds]
    rw [hleast.unique hone]
    rfl

end Cli
end AdLedger
