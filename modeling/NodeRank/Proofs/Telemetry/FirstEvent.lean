import NodeRank.Proofs.Scoring.Cancelled
import NodeRank.Proofs.Scoring.Neutral

/-! # The first event of a wait

A wait for telemetry is polled moment by moment. Each poll looks for the cancellation first, then
for the answer, and for the time limit last, and the wait is over with the first thing that is
found. So how a wait ends is settled by comparing the moments, also where two of them coincide. A
call that needs the answer is cancelled exactly if its wait is, and any other call exactly if the
cycle is cancelled beforehand.
-/
namespace NodeRank

namespace Cancellation
variable {c : Cancellation}

/-- Whether the cancellation is what ends a wait: it is there beforehand, or the first poll finds
nothing and neither the answer nor the time limit comes before the cancellation. -/
def Interrupts (c : Cancellation) (delay timeout : Nat) : Prop :=
  c = .beforehand ∨
    0 < delay ∧ 0 < timeout ∧ ∃ k, c = .after k ∧ k ≤ delay ∧ k ≤ timeout

theorem isSeenAt_of_le {m n : Nat} (hle : m ≤ n) (h : c.isSeenAt m) : c.isSeenAt n := by
  cases c with
  | never => exact h
  | beforehand => rfl
  | after k =>
    simp only [isSeenAt, Bool.and_eq_true, decide_eq_true_eq] at h ⊢
    exact ⟨h.1.trans_le hle,h.2.trans hle⟩

/-- A cancellation interrupts a wait if it is seen by the time that the wait is over. -/
theorem isSeenAt_min_iff {delay timeout : Nat} :
    c.isSeenAt (min delay timeout) ↔ c.Interrupts delay timeout := by
  cases c with
  | never => simp [isSeenAt, Interrupts]
  | beforehand => simp [isSeenAt, Interrupts]
  | after k => simp [isSeenAt, Interrupts, and_assoc]

end Cancellation

namespace Wait

/-- What a poll of a wait finds at a moment, if anything. -/
def poll (delay timeout : Nat) (c : Cancellation) (moment : Nat) : Option WaitEnd :=
  if c.isSeenAt moment then some .cancelled
  else if delay ≤ moment then some .answered
  else if timeout ≤ moment then some .timedOut
  else none

/-- How a wait ends that is still on at a moment. -/
inductive EndsFrom (delay timeout : Nat) (c : Cancellation) : Nat → WaitEnd → Prop
  | found {moment : Nat} {e : WaitEnd} (h : poll delay timeout c moment = some e) :
    EndsFrom delay timeout c moment e
  | pending {moment : Nat} {e : WaitEnd} (h : poll delay timeout c moment = none)
    (rest : EndsFrom delay timeout c (moment + 1) e) : EndsFrom delay timeout c moment e

variable {delay timeout : Nat} {c : Cancellation}

theorem firstEvent_eq_cancelled_iff :
    firstEvent delay timeout c = .cancelled ↔ c.Interrupts delay timeout := by
  rw [← Cancellation.isSeenAt_min_iff]
  unfold firstEvent
  split_ifs <;> simp_all

theorem poll_ne_none {moment : Nat} (h : min delay timeout ≤ moment) :
    poll delay timeout c moment ≠ none := by
  rw [min_le_iff] at h
  unfold poll
  split_ifs <;> simp_all

/-- At the latest a wait is over when its answer or its time limit is there. -/
theorem poll_min :
    poll delay timeout c (min delay timeout) = some (firstEvent delay timeout c) := by
  have hanswer : delay ≤ min delay timeout ↔ delay ≤ timeout := by simp
  have hlimit : ¬ delay ≤ timeout → timeout ≤ min delay timeout :=
    fun hlate => le_min (Nat.le_of_not_le hlate) le_rfl
  unfold poll firstEvent
  split_ifs <;> simp_all

/-- A wait is over at its time limit, if not before. -/
theorem exists_endsFrom (delay timeout : Nat) (c : Cancellation) (moment : Nat) :
    ∃ e, EndsFrom delay timeout c moment e := by
  induction h : timeout - moment generalizing moment with
  | zero =>
    have hpoll : poll delay timeout c moment ≠ none :=
      poll_ne_none (min_le_of_right_le (Nat.le_of_sub_eq_zero h))
    obtain ⟨e,he⟩ := Option.ne_none_iff_exists'.mp hpoll
    exact ⟨e,.found he⟩
  | succ n ih =>
    cases hpoll : poll delay timeout c moment with
    | some e => exact ⟨e,.found hpoll⟩
    | none =>
      obtain ⟨e,he⟩ := ih (moment + 1) (by omega)
      exact ⟨e,.pending hpoll he⟩

/-- What is found after polls in vain is the first event. -/
theorem firstEvent_of_poll {moment : Nat} {e : WaitEnd}
    (hbefore : ∀ m < moment, poll delay timeout c m = none)
    (h : poll delay timeout c moment = some e) : e = firstEvent delay timeout c := by
  have hmoment : moment ≤ min delay timeout := by
    by_contra hlt
    exact poll_ne_none le_rfl (hbefore _ (Nat.not_le.mp hlt))
  by_cases hseen : c.isSeenAt moment
  · have hmin := Cancellation.isSeenAt_of_le hmoment hseen
    rw [poll, if_pos hseen] at h
    rw [firstEvent, if_pos hmin, Option.some.inj h]
  · -- Short of the earlier of answer and limit there is nothing else to find.
    have hmin : min delay timeout ≤ moment := by
      by_contra hnot
      rw [min_le_iff, not_or] at hnot
      rw [poll, if_neg hseen, if_neg hnot.1, if_neg hnot.2] at h
      cases h
    rw [le_antisymm hmoment hmin, poll_min] at h
    exact (Option.some.inj h).symm

theorem EndsFrom.eq_firstEvent {moment : Nat} {e : WaitEnd} (h : EndsFrom delay timeout c moment e)
    (hbefore : ∀ m < moment, poll delay timeout c m = none) : e = firstEvent delay timeout c := by
  induction h with
  | found h => exact firstEvent_of_poll hbefore h
  | @pending moment _ h _ ih =>
    apply ih
    intro m hm
    rcases Nat.lt_succ_iff_lt_or_eq.mp hm with hm | rfl
    · exact hbefore m hm
    · exact h

/-- Polled from the start, a wait ends with the first event and in no other way. -/
theorem endsFrom_zero_iff {e : WaitEnd} :
    EndsFrom delay timeout c 0 e ↔ e = firstEvent delay timeout c := by
  constructor
  · intro h
    exact h.eq_firstEvent nofun
  · rintro rfl
    obtain ⟨e,he⟩ := exists_endsFrom delay timeout c 0
    rwa [← he.eq_firstEvent nofun]

example : firstEvent 10 10 .never = .answered ∧ firstEvent 10 10 (.after 10) = .cancelled ∧
    firstEvent 5 0 (.after 0) = .timedOut := by decide

end Wait

namespace Telemetry

/-- What a wait comes to that ends so. -/
def ended (t : Telemetry) (node : String) (c : Cancellation) (e : WaitEnd) :
    Outcome (Except ScoreError (Option Usage)) :=
  let asked := if c.isBeforehand then [] else [node]
  match e with
  | .cancelled => ⟨.error (.cancelled node),[],asked⟩
  | .answered =>
    let r := reading node (t.answer node).result
    ⟨.ok r.1,r.2,asked⟩
  | .timedOut => ⟨.ok none,[.usageUnknown node .timeout],asked⟩

theorem usage_eq_ended (t : Telemetry) (node : String) (c : Cancellation) :
    t.usage node c = t.ended node c (firstEvent (t.answer node).delay t.timeout c) := by
  unfold usage ended
  dsimp only
  cases firstEvent (t.answer node).delay t.timeout c <;> rfl

/-- A wait that is polled from the start ends in one way, and comes to what it comes to then. -/
theorem exists_ended (t : Telemetry) (node : String) (c : Cancellation) :
    let a := t.answer node
    ∃ e, (∀ e', Wait.EndsFrom a.delay t.timeout c 0 e' ↔ e' = e) ∧
      t.usage node c = t.ended node c e ∧
      (e = .cancelled ↔ c.Interrupts a.delay t.timeout) ∧
      (e = .answered ↔ ¬ c.Interrupts a.delay t.timeout ∧ a.InTime t.timeout) := by
  intro a
  refine ⟨_,fun _ => Wait.endsFrom_zero_iff,t.usage_eq_ended node c,
    Wait.firstEvent_eq_cancelled_iff,?_⟩
  by_cases h : c.Interrupts a.delay t.timeout
  · simp [Wait.firstEvent_eq_cancelled_iff.mpr h, h]
  · rw [firstEvent_of_ne_cancelled (mt Wait.firstEvent_eq_cancelled_iff.mp h), firstEvent_never,
      and_iff_right h]
    unfold Answer.InTime
    split <;> simp_all

theorem result_usage_eq_cancelled_iff {t : Telemetry} {node other : String} {c : Cancellation} :
    (t.usage node c).result = .error (.cancelled other) ↔
      other = node ∧ c.Interrupts (t.answer node).delay t.timeout := by
  rw [result_usage, ← Wait.firstEvent_eq_cancelled_iff]
  split <;> rename_i h <;> simp [h, eq_comm]

section NotInterrupted
variable {t : Telemetry} {node : String} {c : Cancellation}
variable (h : ¬ c.Interrupts (t.answer node).delay t.timeout)
include h

theorem usage_eq_ended_never :
    t.usage node c =
      t.ended node c (firstEvent (t.answer node).delay t.timeout .never) := by
  rw [usage_eq_ended, firstEvent_of_ne_cancelled (mt Wait.firstEvent_eq_cancelled_iff.mp h)]

/-- An answer in time is what the wait comes to. -/
theorem usage_of_inTime (hin : (t.answer node).InTime t.timeout) :
    t.usage node c = t.ended node c .answered := by
  rw [usage_eq_ended_never h, firstEvent_never]
  exact congrArg (t.ended node c) (if_pos hin)

theorem usage_of_late (hlate : ¬ (t.answer node).InTime t.timeout) :
    t.usage node c = t.ended node c .timedOut := by
  rw [usage_eq_ended_never h, firstEvent_never]
  exact congrArg (t.ended node c) (if_neg hlate)

end NotInterrupted

section Reading
variable {node : String} {r : Except TelemetryError Usage}

theorem reading_fst_eq_some_iff {u : Usage} : (reading node r).1 = some u ↔ r = .ok u := by
  cases r with
  | ok v => simp [reading]
  | error e => cases e <;> simp [reading]

theorem reading_fst_eq_none_iff : (reading node r).1 = none ↔ ¬ ∃ u, r = .ok u := by
  simp [Option.eq_none_iff_forall_ne_some, reading_fst_eq_some_iff]

theorem reading_snd_eq_nil_iff :
    (reading node r).2 = [] ↔ r = .error .disabled ∨ ∃ u, r = .ok u := by
  cases r with
  | ok v => simp [reading]
  | error e => cases e <;> simp [reading]

theorem reading_snd_eq_singleton_iff {e : TelemetryError} :
    (reading node r).2 = [.usageUnknown node e] ↔ r = .error e ∧ e ≠ .disabled := by
  cases r with
  | ok v => simp [reading]
  | error e' => cases e' <;> cases e <;> simp [reading]

end Reading

/-- What a wait that is not cancelled comes to: the reading that is there in time, or none, and
then a record of why, unless telemetry says in time that it is switched off. -/
theorem usage_of_not_interrupts {t : Telemetry} {node : String} {c : Cancellation}
    (h : ¬ c.Interrupts (t.answer node).delay t.timeout) :
    let a := t.answer node
    let o := t.usage node c
    (∀ u, o.result = .ok (some u) ↔ a.result = .ok u ∧ a.InTime t.timeout) ∧
      (o.result = .ok none ↔ ¬ ∃ u, a.result = .ok u ∧ a.InTime t.timeout) ∧
      (o.log = [] ↔ (a.result = .error .disabled ∨ ∃ u, a.result = .ok u) ∧ a.InTime t.timeout) ∧
      ∀ e, o.log = [.usageUnknown node e] ↔
        (a.result = .error e ∧ e ≠ .disabled) ∧ a.InTime t.timeout ∨
          e = .timeout ∧ ¬ a.InTime t.timeout := by
  intro a o
  by_cases hin : a.InTime t.timeout
  · have ho : o = t.ended node c .answered := usage_of_inTime h hin
    simp only [ho, ended, Except.ok.injEq, reading_fst_eq_some_iff, reading_fst_eq_none_iff,
      reading_snd_eq_nil_iff, reading_snd_eq_singleton_iff, hin, and_true, not_true_eq_false,
      and_false, or_false, implies_true, a]
  · have ho : o = t.ended node c .timedOut := usage_of_late h hin
    have hone (e : TelemetryError) :
        [Record.usageUnknown node .timeout] = [.usageUnknown node e] ↔ e = .timeout := by
      simp [eq_comm]
    simp [ho, ended, hin, hone]

end Telemetry

namespace Scorer

/-- Whether the cancellation stops a call on a node: where the table asks telemetry, it has to end
the wait, and elsewhere it has to be there beforehand. -/
def StopsOn (s : Scorer) (node : String) (c : Cancellation) : Prop :=
  if ResourceName.cpu ∈ s.weights.names ∨ ResourceName.memory ∈ s.weights.names then
    c.Interrupts (s.telemetry.answer node).delay s.telemetry.timeout
  else c = .beforehand

theorem stopsOn_beforehand (s : Scorer) (node : String) : s.StopsOn node .beforehand := by
  unfold StopsOn
  split
  · exact .inl rfl
  · rfl

theorem stopsOn_iff {s : Scorer} {node : String} {c : Cancellation} (hc : c ≠ .beforehand) :
    s.StopsOn node c ↔
      s.needsUsage ∧ c.Interrupts (s.telemetry.answer node).delay s.telemetry.timeout := by
  simp only [StopsOn, ← needsUsage_iff_names, hc]
  split <;> simp_all

theorem result_score_eq_cancelled_iff {s : Scorer} {state : NodeState} {n : Node}
    {c : Cancellation} {other : String} (hn : state.node = some n) :
    (s.score state c).result = .error (.cancelled other) ↔ other = n.name ∧ s.StopsOn n.name c := by
  by_cases hc : c = .beforehand
  · subst hc
    rw [s.score_beforehand_of_node hn]
    simp [Outcome.pure, s.stopsOn_beforehand, eq_comm]
  have hc' : c.isBeforehand = false := by cases c <;> simp_all [Cancellation.isBeforehand]
  rw [stopsOn_iff hc]
  cases hw : s.weights.isEmpty with
  | true => simp [result_of_isEmpty hn hc' hw, needsUsage_of_isEmpty hw]
  | false =>
    rw [result_of_entries hn hc' hw]
    cases s.needsUsage with
    | false => simp [Except.map]
    | true =>
      rw [if_pos rfl, and_iff_right rfl, ← Telemetry.result_usage_eq_cancelled_iff]
      cases (s.telemetry.usage n.name c).result <;> simp [Except.map]

end Scorer

namespace Ranker

/-- A wait comes to what the first of its events makes of it. It is cancelled exactly if it is
interrupted, and otherwise it tells the reading that is there in time, or records why there is
none. A call on a known node is cancelled exactly if its wait is, where it needs one, and exactly
if the cycle is cancelled beforehand, where it needs none. -/
theorem cancelled_by_first_event (r : Ranker) (c : Cancellation) :
    let s := r.scorer
    let t := s.telemetry
    (∀ node,
      let a := t.answer node
      let o := t.usage node c
      (∃ e, (∀ e', Wait.EndsFrom a.delay t.timeout c 0 e' ↔ e' = e) ∧ o = t.ended node c e ∧
        (e = .cancelled ↔ c.Interrupts a.delay t.timeout) ∧
        (e = .answered ↔ ¬ c.Interrupts a.delay t.timeout ∧ a.InTime t.timeout)) ∧
      (o.result = .error (.cancelled node) ↔ c.Interrupts a.delay t.timeout) ∧
      (¬ c.Interrupts a.delay t.timeout →
        (∀ u, o.result = .ok (some u) ↔ a.result = .ok u ∧ a.InTime t.timeout) ∧
        (o.result = .ok none ↔ ¬ ∃ u, a.result = .ok u ∧ a.InTime t.timeout) ∧
        (o.log = [] ↔
          (a.result = .error .disabled ∨ ∃ u, a.result = .ok u) ∧ a.InTime t.timeout) ∧
        ∀ e, o.log = [.usageUnknown node e] ↔
          (a.result = .error e ∧ e ≠ .disabled) ∧ a.InTime t.timeout ∨
            e = .timeout ∧ ¬ a.InTime t.timeout)) ∧
    (∀ state n other, state.node = some n →
      ((s.score state c).result = .error (.cancelled other) ↔
        other = n.name ∧ s.StopsOn n.name c)) ∧
    ∀ changes name other,
      let cluster := Snapshot.empty.run changes
      ((r.score cluster name c).result = .error (.cancelled other) ↔
        name ∈ cluster.nodeNames ∧ other = name ∧ s.StopsOn name c) := by
  intro s t
  refine ⟨fun node => ⟨t.exists_ended node c,?_,
    Telemetry.usage_of_not_interrupts⟩,fun state n other hn =>
      Scorer.result_score_eq_cancelled_iff hn,?_⟩
  · rw [Telemetry.result_usage_eq_cancelled_iff, and_iff_right rfl]
  · intro changes name other cluster
    have hmem : name ∈ cluster.nodeNames ↔ (cluster.get? name).isSome := NameMap.mem_names_iff
    rw [hmem]
    unfold score
    cases hget : cluster.get? name with
    | none => simp [Outcome.pure]
    | some state =>
      obtain ⟨n,hn,rfl⟩ := Snapshot.nodeName_of_get? hget
      rw [Option.isSome_some, and_iff_right rfl]
      exact Scorer.result_score_eq_cancelled_iff hn

/-- An answer after twenty milliseconds is waited for when the cancellation takes fifty, and not
when it takes five. -/
theorem cancelled_after_five_of_twenty :
    let r : Ranker := ⟨.slow [("cpu", 1)]⟩
    let t := r.scorer.telemetry
    ¬ Cancellation.Interrupts (.after 50) 20 100 ∧
      Wait.EndsFrom 20 100 (.after 50) 0 .answered ∧
      (t.usage "n1" (.after 50)).result = .ok (some ⟨.ofInt 63 1000,1⟩) ∧
      (t.usage "n1" (.after 50)).log = [] ∧
      (NodeState.ofNode Scorer.manyPods).node = some Scorer.manyPods ∧
      (r.scorer.score (.ofNode Scorer.manyPods) (.after 5)).result = .error (.cancelled "n1") := by
  intro r t
  have hnot : ¬ Cancellation.Interrupts (.after 50) 20 100 := by
    simp [Cancellation.Interrupts]
  have hin : (t.answer "n1").InTime t.timeout := show 20 ≤ 100 by decide
  have hneeds : r.scorer.needsUsage := by decide +kernel
  have hinterrupts : Cancellation.Interrupts (.after 5) 20 100 :=
    .inr ⟨by decide,by decide,5,rfl,by decide,by decide⟩
  have hstops : r.scorer.StopsOn "n1" (.after 5) :=
    (Scorer.stopsOn_iff (by decide)).mpr ⟨hneeds,hinterrupts⟩
  obtain ⟨hwait,_,_⟩ := cancelled_by_first_event r (.after 50)
  obtain ⟨⟨e,hend,_,_,hanswered⟩,_,hread⟩ := hwait "n1"
  obtain ⟨hsome,_,hlog,_⟩ := hread hnot
  obtain ⟨_,hscore,_⟩ := cancelled_by_first_event r (.after 5)
  exact ⟨hnot,(hend _).mpr (hanswered.mpr ⟨hnot,hin⟩).symm,(hsome _).mpr ⟨rfl,hin⟩,
    hlog.mpr ⟨.inr ⟨_,rfl⟩,hin⟩,rfl,(hscore _ _ _ rfl).mpr ⟨rfl,hstops⟩⟩

end Ranker
end NodeRank
