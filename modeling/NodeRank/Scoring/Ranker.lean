import NodeRank.Cluster.Snapshot
import NodeRank.Config.Args
import NodeRank.Scoring.Scorer

/-! # Ranking a shortlist

Every node of a shortlist is scored by itself, all from the same moment on. Those with a score come
out best first, and by name among equals; those without are left out.
-/
namespace NodeRank

@[ext] structure Ranked where
  name : String
  score : Int
deriving DecidableEq

namespace Ranked

/-- Whether a node may stand in front of another: by the higher score, then by the smaller name. -/
def precedes (a b : Ranked) : Bool := b.score < a.score || (a.score == b.score && a.name ≤ b.name)

theorem precedes_iff {a b : Ranked} :
    a.precedes b ↔ b.score < a.score ∨ a.score = b.score ∧ a.name ≤ b.name := by
  simp [precedes]

theorem precedes_total (a b : Ranked) : a.precedes b || b.precedes a := by
  rw [Bool.or_eq_true, precedes_iff, precedes_iff]
  rcases Int.lt_trichotomy a.score b.score with h | h | h
  · exact .inr (.inl h)
  · rcases String.le_total a.name b.name with hn | hn
    · exact .inl (.inr ⟨h,hn⟩)
    · exact .inr (.inr ⟨h.symm,hn⟩)
  · exact .inl (.inl h)

theorem precedes_trans {a b c : Ranked} (h : a.precedes b) (h' : b.precedes c) : a.precedes c := by
  rw [precedes_iff] at *
  rcases h with h | ⟨h,hn⟩ <;> rcases h' with h' | ⟨h',hn'⟩
  · exact .inl (Int.lt_trans h' h)
  · exact .inl (h' ▸ h)
  · exact .inl (h ▸ h')
  · exact .inr ⟨h.trans h',String.le_trans hn hn'⟩

/-- Nodes that stand in front of each other are the same. -/
theorem eq_of_precedes {a b : Ranked} (h : a.precedes b) (h' : b.precedes a) : a = b := by
  rw [precedes_iff] at *
  rcases h with h | ⟨h,hn⟩ <;> rcases h' with h' | ⟨h',hn'⟩
  · exact absurd h (Int.lt_asymm h')
  · exact absurd h (h' ▸ Int.lt_irrefl _)
  · exact absurd h' (h ▸ Int.lt_irrefl _)
  · exact Ranked.ext (String.le_antisymm hn hn') h

end Ranked

/-- The ranked nodes, the nodes left out with the reason, and the nodes asked about. -/
structure Ranking where
  best : List Ranked
  excluded : List (String × ScoreError)
  asked : List String

structure Ranker where
  scorer : Scorer

namespace Ranker

def pluginName : String := "NodeResourcesAllocatable"

def ofArgs (a : Args) (telemetry : Telemetry) : Except ConfigError Ranker :=
  (Weights.ofSpecs a.resources).map fun weights => ⟨⟨pluginName,a.policy,weights,telemetry⟩⟩

/-- The ranker that the arguments describe, with telemetry only if they ask for it. -/
def configured (a : Args) (telemetry : Telemetry) : Except ConfigError Ranker :=
  ofArgs a (if a.metricsEnabled then telemetry else .off)

def score (r : Ranker) (s : Snapshot) (name : String) (c : Cancellation) :
    Outcome (Except ScoreError Int) :=
  match s.get? name with
  | none => .pure (.error (.nodeNotFound ("getting node " ++ Text.quote name ++ " from snapshot")))
  | some state => r.scorer.score state c

/-- The entry of a node in the ranking, if it has a score. -/
def entry? (r : Ranker) (s : Snapshot) (c : Cancellation) (name : String) : Option Ranked :=
  match (r.score s name c).result with
  | .ok score => some ⟨name,score⟩
  | .error _ => none

/-- The reason why a node is left out, if it is. -/
def exclusion? (r : Ranker) (s : Snapshot) (c : Cancellation) (name : String) :
    Option (String × ScoreError) :=
  match (r.score s name c).result with
  | .ok _ => none
  | .error e => some (name, e)

/-- Scores the nodes of a shortlist and puts them in order. -/
def rank (r : Ranker) (s : Snapshot) (names : List String) (c : Cancellation) : Ranking where
  best := (names.filterMap (r.entry? s c)).mergeSort Ranked.precedes
  excluded := names.filterMap (r.exclusion? s c)
  asked := names.flatMap fun name => (r.score s name c).asked

end Ranker
end NodeRank
