import FeatureFlow.Proofs.Engine.Conversation

/-!
# Waiting as a run of events

The engine lets time pass by rules of its own: queued jobs take their turns
first in, first out, and then the clock moves to the next timer. Whatever it does
while it waits is also a run of events (`reaches_pass`), so what holds in every
run holds of an engine that waits.
-/

namespace FeatureFlow

theorem Schedule.settle_of_nil {s : Schedule} (h : s.queue = []) : s.settle = s := by
  rw [settle]
  split
  · rfl
  · rename_i hcons
    cases h.symm.trans hcons

theorem Schedule.settle_of_cons {s : Schedule} (h : s.queue = job :: rest) :
    s.settle = (s.step job rest).settle := by
  rw [settle]
  split
  · rename_i hnil
    cases h.symm.trans hnil
  · rename_i hcons
    obtain ⟨rfl, rfl⟩ := List.cons.inj (h.symm.trans hcons)
    rfl

namespace Conversation

variable {c : Conversation}

def Reaches (c : Conversation) (engine : Engine) : Prop :=
  ∃ events, (c.run events).engine = engine

theorem Reaches.refl (c : Conversation) : c.Reaches c.engine :=
  ⟨[], rfl⟩

theorem Reaches.trans (h : c.Reaches e) (hnext : ∀ d : Conversation, d.engine = e → d.Reaches e') :
    c.Reaches e' := by
  obtain ⟨events, rfl⟩ := h
  obtain ⟨more, rfl⟩ := hnext (c.run events) rfl
  exact ⟨events ++ more, congrArg Conversation.engine (List.foldl_append ..)⟩

theorem Reaches.handle (event : Event) (h : (c.handle event).Reaches e) : c.Reaches e := by
  obtain ⟨events, rfl⟩ := h
  exact ⟨event :: events, rfl⟩

theorem reaches_settle {s : Schedule} (h : c.engine.schedule = s) :
    c.Reaches { c.engine with schedule := s.settle } := by
  induction s using Schedule.settle.induct generalizing c with
  | case1 s hqueue =>
    rw [Schedule.settle_of_nil hqueue]
    exact h ▸ .refl c
  | case2 s job rest hqueue ih =>
    have hturn : (c.handle (.turn 0)).engine =
        { c.engine with schedule := s.step job rest } := by
      simp [Conversation.handle, Conversation.turn, h, hqueue]
    have hrest := ih (c := c.handle (.turn 0)) (congrArg Engine.schedule hturn)
    rw [hturn] at hrest
    rw [Schedule.settle_of_cons hqueue]
    exact hrest.handle

theorem reaches_wake (due : List Timer) (h : c.engine.schedule.timers = due ++ rest) :
    c.Reaches { c.engine with schedule := { c.engine.schedule with
      queue := c.engine.schedule.queue ++ due.map (·.job)
      timers := rest } } := by
  induction due generalizing c with
  | nil =>
    obtain rfl : c.engine.schedule.timers = rest := h
    simpa using Reaches.refl c
  | cons timer due ih =>
    have hwake : (c.handle (.wake 0)).engine = { c.engine with schedule := { c.engine.schedule with
        queue := c.engine.schedule.queue ++ [timer.job]
        timers := due ++ rest } } := by
      simp [Conversation.handle, Conversation.wake, h]
    have hrest := ih (c := c.handle (.wake 0)) (congrArg (·.schedule.timers) hwake)
    rw [hwake] at hrest
    simpa using hrest.handle

theorem reaches_elapse (c : Conversation) (moment : Nat) :
    c.Reaches { c.engine with schedule := { c.engine.schedule with now := moment } } :=
  ⟨[.elapse moment], rfl⟩

theorem reaches_moveTo (c : Conversation) (moment : Nat) :
    c.Reaches { c.engine with schedule := c.engine.schedule.moveTo moment } := by
  refine (reaches_elapse c moment).trans fun d hd => ?_
  have htimers : d.engine.schedule.timers = c.engine.schedule.timers := by rw [hd]
  have hsplit := List.takeWhile_append_dropWhile (p := (·.due ≤ moment))
    (l := c.engine.schedule.timers)
  have hwake := reaches_wake (c := d) _ (htimers.trans hsplit.symm)
  rwa [hd] at hwake

theorem reaches_passFor (stop : Schedule → Bool) (deadline left : Nat) {s : Schedule}
    (h : c.engine.schedule = s) :
    c.Reaches { c.engine with schedule := s.passFor stop deadline left } := by
  induction left generalizing c s with
  | zero => exact reaches_settle h
  | succ left ih =>
    refine (reaches_settle h).trans fun d hd => ?_
    have hschedule : d.engine.schedule = s.settle := congrArg Engine.schedule hd
    have hsame (t : Schedule) :
        { c.engine with schedule := t } = { d.engine with schedule := t } := by
      rw [hd]
    rw [Schedule.passFor, hsame]
    dsimp only
    split
    · exact hschedule ▸ .refl d
    · split
      · exact hschedule ▸ .refl d
      · rename_i moment _
        refine (reaches_moveTo d moment).trans fun d' hd' => ?_
        have hmoved : d'.engine.schedule = s.settle.moveTo moment := by rw [hd', hschedule]
        have hpass := ih hmoved
        rwa [hd'] at hpass

/-- Letting time pass is a run of events. -/
theorem reaches_pass (c : Conversation) (stop : Schedule → Bool) (deadline : Nat) :
    c.Reaches { c.engine with schedule := c.engine.schedule.pass stop deadline } :=
  reaches_passFor stop deadline _ rfl

theorem reaches_sleep (c : Conversation) (milliseconds : Nat) :
    c.Reaches (c.engine.sleep milliseconds) := by
  refine (reaches_pass c (fun _ => false) (c.engine.schedule.now + milliseconds)).trans
    fun d hd => ?_
  have helapse := reaches_elapse d (c.engine.schedule.now + milliseconds)
  rwa [hd] at helapse

theorem reaches_waitSynced (c : Conversation) (milliseconds : Nat) :
    c.Reaches (c.engine.waitSynced milliseconds).1 := by
  let deadline := c.engine.schedule.now + milliseconds
  have hrest {early : Schedule} (h : c.Reaches { c.engine with schedule := early }) :
      c.Reaches (if Engine.isSynced early then ({ c.engine with schedule := early }, true)
        else ({ c.engine with schedule := early.moveTo deadline }, false)).1 := by
    split
    · exact h
    · refine h.trans fun d hd => ?_
      have hmove := reaches_moveTo d deadline
      rwa [hd] at hmove
  refine hrest ?_
  split
  · exact .refl c
  · exact reaches_pass c Engine.isSynced (deadline - 1)

theorem reaches_readyReported (c : Conversation) : c.Reaches c.engine.readyReported := by
  have htake : c.Reaches { c.engine with barrier := none } := ⟨[.takeBarrier], rfl⟩
  unfold Engine.readyReported Engine.takeBarrier
  cases c.engine.barrier with
  | none => exact htake
  | some number =>
    refine htake.trans fun d hd => ?_
    have hpass := reaches_pass d (fun s => !s.isPending number)
      (c.engine.schedule.now + c.engine.schedule.timing.ceiling)
    rwa [hd] at hpass

end Conversation

end FeatureFlow
