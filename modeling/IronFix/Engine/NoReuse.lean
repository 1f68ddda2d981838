import IronFix.Engine.Numbering

/-!
# Runs of sessions

Every action, whatever its calls meet, ends in a sound world whose session, if
one runs, is ahead; so does every run of actions from a store on which nothing
was sent yet.
-/

namespace IronFix.Engine

open Lib.Decimal Lib.Effects Lib.Runs
open IronFix.Store IronFix.Session

variable {before : World}

/-! ## Closing -/

theorem persistChangedSender_keeps (ahead : Ahead before) :
    Keeps (Leads before) persistChangedSender := by
  apply Meets.read
  intro world
  split
  · exact Meets.returns fun _ start => start.1
  · rename_i next changed
    apply Meets.bind (Q := fun _ after => Leads before after ∧ next = before.sequences.nextSenderSeq)
    · apply Meets.writes
      rintro _ ⟨leads, rfl⟩
      refine ⟨leads.memory rfl, ?_⟩
      unfold PersistedCounters.senderToWrite at changed
      split at changed
      · cases changed
        rw [leads.1.sequences]
      · cases changed
    intro _ world start
    obtain ⟨leads, rfl⟩ := start
    exact persist_keeps (fun _ n sets => Option.some.inj sets ▸ ahead) world leads

theorem persistCounters_keeps (ahead : Ahead before) : Keeps (Leads before) persistCounters := by
  apply Meets.read
  intro world
  split
  · apply Meets.bind (Q := fun _ => Leads before)
    · exact (persistChangedSender_keeps ahead).weaken (fun _ start => start.1)
        fun _ _ leads => leads
    intro result
    cases result with
    | error error => exact Meets.returns fun _ leads => leads
    | ok _ => exact persistTargetWith_keeps _
  · exact Meets.returns fun _ start => start.1

/-- A closed session: what may still be written is above what was handed over. -/
def Closing (writeCounters : Bool) (world : World) : Prop :=
  Sound world ∧ world.live = false ∧ (writeCounters = true → Ahead world)

/-- The counters of the new stream are in memory, nothing else moved. -/
def World.renewed (world : World) : World := { world with sequences := .new }

theorem Sound.renewed {world : World} (sound : Sound world) : Sound world.renewed :=
  ⟨sound.attached, sound.closes, sound.distinct, sound.past, sound.stored, sound.flight⟩

theorem closeReset_closes (sound : Sound before) (idle : before.live = false) :
    Meets (Leads before) closeReset Closing (fun _ => Leads before.renewed) := by
  have kept : ∀ world, Leads before.renewed world → Closing false world :=
    fun world leads => ⟨leads.2, leads.1.live.trans idle, nofun⟩
  apply Meets.read
  intro seen
  apply Meets.bind
    (Q := fun _ world => Leads before.renewed world ∧ seen.storeAttached = true)
  · apply Meets.writes
    rintro _ ⟨⟨quiet, after⟩, rfl⟩
    exact ⟨⟨⟨quiet.transport, rfl, quiet.live, quiet.attached, quiet.policy, quiet.resets⟩,
      after.renewed⟩, after.attached⟩
  intro _
  split
  · apply Meets.bind (Q := fun _ => Leads before.renewed)
    · exact oweReset_keeps.weaken (fun _ start => start.1) fun _ _ leads => leads
    intro ticket
    apply Meets.bind syncMarker_keeps
    intro _
    apply Meets.bind (timed_takes (safe_of_resets rfl))
    intro result
    cases result with
    | error error => exact Meets.returns fun world taken => kept world taken.1
    | ok _ =>
        -- the reset took effect, so nothing was handed over since
        apply Meets.bind
          (Q := fun _ world => Leads before.renewed world ∧ before.resets < world.resets)
        · rintro world ⟨leads, took⟩
          exact ⟨leads.memory rfl, (took rfl).2.2 rfl⟩
        intro _
        apply Meets.bind
          (Q := fun _ world => Leads before.renewed world ∧ before.resets < world.resets)
        · rintro world ⟨leads, reset⟩
          have met := syncMarker_keeps world ⟨Quiet.refl world, leads.2⟩
          revert met
          cases syncMarker world with
          | ok a after =>
              exact fun later => ⟨leads.then later.1 later.2, reset.trans_le later.1.resets⟩
          | error stop after => exact fun later => leads.then later.1 later.2
        intro _
        apply Meets.returns
        rintro world ⟨leads, reset⟩
        exact ⟨leads.2, leads.1.live.trans idle,
          fun _ => sound.renewed.above_of_reset leads.1 reset _⟩
  · rename_i detached
    exact fun _ start => absurd start.2 detached

theorem closeSession_running (resets : Bool) :
    Meets (fun world => Running world ∧ world.live = true) (closeSession resets)
      (fun _ => Running) Stopped := by
  have writes : ∀ writeCounters, Meets (Closing writeCounters) (do
      if writeCounters then
        let _ ← persistCounters
        return ()
      else return ()) (fun _ => Running) Stopped := by
    rintro writeCounters world ⟨sound, idle, ahead⟩
    have running : Running world := ⟨sound, fun live => nomatch idle.symm.trans live⟩
    cases writeCounters with
    | false => exact running
    | true =>
        have persists : Meets (Leads world) (persistCounters >>= fun _ => pure ())
            (fun _ => Running) Stopped := by
          apply Meets.bind
          · exact (persistCounters_keeps (ahead rfl)).loosen
              fun stop _ leads => (Leads.running running.2 leads).stopped stop
          intro _
          exact Meets.returns fun _ leads => Leads.running running.2 leads
        exact persists world ⟨Quiet.refl world, sound⟩
  apply Meets.bind (Q := fun _ => Closing true)
  · exact Meets.changes fun world start =>
      ⟨(gone_running start.1.1).1, rfl, fun _ => start.1.2 start.2⟩
  intro _
  split
  · apply Meets.bind (Q := Closing)
    · rintro world ⟨sound, idle, -⟩
      have met := closeReset_closes sound idle world ⟨Quiet.refl world, sound⟩
      revert met
      cases closeReset world with
      | ok writeCounters after => exact id
      | error stop after =>
          exact fun leads => ⟨leads.2, fun _ live => nomatch (leads.1.live.trans idle).symm.trans live⟩
    intro writeCounters
    exact writes writeCounters
  · exact writes true

/-! ## Actions and runs -/

/-- An action on a running session ends sound, its session ahead. -/
theorem Action.running_runs (action : Action) :
    Meets (fun world => Running world ∧ world.live = true) action.running
      (fun _ => Running) Stopped := by
  have plain : ∀ program : Program Unit, (∀ before, Ahead before → Keeps (Leads before) program) →
      Meets (fun world => Running world ∧ world.live = true) program (fun _ => Running) Stopped := by
    rintro program keeps world ⟨running, live⟩
    have met := keeps world (running.2 live) world ⟨Quiet.refl world, running.1⟩
    revert met
    cases program world with
    | ok a after => exact fun leads => Leads.running running.2 leads
    | error stop after => exact fun leads => (Leads.running running.2 leads).stopped stop
  cases action with
  | send msgType encode => exact sendHandshake_running msgType encode
  | adoptAckReset => exact adoptAckReset_running.weaken (fun _ start => start.1) fun _ _ ends => ends
  | acceptInbound => exact acceptInbound_running.weaken (fun _ start => start.1) fun _ _ ends => ends
  | settle =>
      apply plain
      intro before _
      apply Meets.read
      intro world
      exact (settle_keeps _).weaken (fun _ start => start.1) fun _ _ leads => leads
  | persistCounters =>
      apply plain
      intro before ahead
      apply Meets.bind (persistCounters_keeps ahead)
      exact answer_keeps
  | markAccounted watermark =>
      apply plain
      intro before _
      apply Meets.bind (persist_keeps (safe_of_silent rfl))
      exact answer_keeps
  | closeSession resets => exact closeSession_running resets
  | openSession declared initial => exact fun _ start => start.1
  | refuseAuthenticated initial => exact fun _ start => start.1
  | drop => exact fun _ start => start.1
  | restart => exact fun _ start => start.1
  | wait earlier => exact fun _ start => start.1

theorem Action.program_runs (action : Action) :
    Meets Running action.program (fun _ => Running) Stopped := by
  have guarded : Meets Running (do
      let world ← get
      if world.live then action.running else return ()) (fun _ => Running) Stopped := by
    apply Meets.read
    intro world
    split
    · rename_i live
      exact action.running_runs.weaken (fun _ start => ⟨start.1, start.2 ▸ live⟩)
        fun _ _ ends => ends
    · exact Meets.returns fun _ start => start.1
  cases action with
  | openSession declared initial => exact openSession_running declared initial
  | refuseAuthenticated initial => exact refuseAuthenticated_running initial
  | drop => exact Meets.changes fun _ running => gone_running running.1
  | restart =>
      exact Meets.changes fun world running =>
        ⟨⟨running.1.attached, running.1.closes, running.1.distinct, running.1.past,
          running.1.stored, running.1.flight⟩, nofun⟩
  | wait earlier =>
      exact Meets.changes fun world running =>
        Leads.running running.2
          ⟨quiet_settleEarlier world earlier, running.1.settleEarlier earlier⟩
  | send msgType encode => exact guarded
  | adoptAckReset => exact guarded
  | acceptInbound => exact guarded
  | settle => exact guarded
  | persistCounters => exact guarded
  | markAccounted watermark => exact guarded
  | closeSession resets => exact guarded

theorem step_running (world : World) (input : Action × List Turn) (running : Running world) :
    Running (step world input) := by
  have turned : Running { world with turns := input.2 } :=
    Leads.running running.2 (Leads.memory ⟨Quiet.refl world, running.1⟩ rfl)
  have met := input.1.program_runs _ turned
  unfold step
  revert met
  cases input.1.program { world with turns := input.2 } with
  | ok _ after => exact id
  | error stop after =>
      cases stop with
      | cut => exact fun stopped => gone_running stopped.1
      | failed error => exact fun stopped => ⟨stopped.1, stopped.2 nofun⟩

theorem initial_running (store : MemoryStore) (maxMessageSize : Nat) :
    Running (World.initial store maxMessageSize) :=
  ⟨⟨rfl, rfl, List.nodup_nil, nofun, nofun, nofun⟩, nofun⟩

theorem run_running (store : MemoryStore) (maxMessageSize : Nat)
    (inputs : List (Action × List Turn)) :
    Running (run step (World.initial store maxMessageSize) inputs) :=
  invariant (fun world input running _ => step_running world input running)
    (initial_running store maxMessageSize) (along_true _ _)

/-! ## A filing that fails -/

/-- Handing over never fails with a store's error. -/
theorem feedFrame_not_store (seq : Nat) (frame : Bytes) :
    Meets (fun _ => True) (feedFrame seq frame) (fun _ _ => True)
      (fun stop _ => ∀ error, stop ≠ .failed (.store error)) := by
  apply Meets.bind (Q := fun _ _ => True)
  · apply Meets.read
    intro world
    split
    · exact Meets.stops fun _ _ error => nofun
    · exact fun _ _ => trivial
  rintro ⟨earlier, fate⟩
  cases fate with
  | done => exact fun _ _ => trivial
  | failed error landing => cases landing <;> exact fun _ _ error => nofun
  | cut landing => cases landing <;> exact fun _ _ error => nofun

/-- A frame the store did not file spends no number and is not written. -/
theorem sendHandshake_refused {world : World} (running : Running world) (live : world.live = true)
    (msgType : MsgType) (encode : Nat → Option Bytes) {error : StoreError} {after : World}
    (refused : sendHandshake msgType encode world = .error (.failed (.store error)) after) :
    after.sequences = world.sequences ∧ after.transport = world.transport := by
  have writes : Meets (· = world) (writeAt world.sequences.nextSenderSeq msgType encode)
      (fun _ _ => True) (fun stop after => ∀ error, stop = .failed (.store error) →
        after.sequences = world.sequences ∧ after.transport = world.transport) := by
    apply Meets.read
    intro seen
    split
    · exact Meets.stops fun _ _ _ => nofun
    · rename_i frame _
      split
      · exact Meets.stops fun _ _ _ => nofun
      · apply Meets.bind (Q := fun _ _ => True)
        · rintro _ ⟨rfl, rfl⟩
          have spends := fileAndSpend_spends (running.2 live) rfl msgType frame _
            ⟨Quiet.refl _, running.1⟩
          revert spends
          cases fileAndSpend _ msgType frame _ with
          | ok filed after => exact fun _ => trivial
          | error stop after => exact fun leads _ _ => ⟨leads.1.sequences, leads.1.transport⟩
        intro _
        exact (feedFrame_not_store _ frame).loosen
          fun stop _ other error same => absurd same (other error)
  have met := writes world rfl
  rw [show writeAt world.sequences.nextSenderSeq msgType encode world
    = .error (.failed (.store error)) after from refused] at met
  exact met error rfl

/-! ## No number is reused -/

/-- Whatever the sessions, the store's failures and the crashes: between two
sequence resets no number is handed to the transport twice, every number handed
over is below the store's next sender number, and a filing that fails spends no
number and writes nothing. -/
theorem no_number_reused (store : MemoryStore) (maxMessageSize : Nat)
    (inputs : List (Action × List Turn)) :
    let world := run step (World.initial store maxMessageSize) inputs
    (world.transport.map Sent.number).Nodup ∧
      (∀ sent ∈ world.transport, sent.resets = world.resets →
        sent.seq < world.store.nextSenderSeq) ∧
      ∀ msgType encode turns error after, world.live = true →
        sendHandshake msgType encode { world with turns := turns }
            = .error (.failed (.store error)) after →
          after.sequences = world.sequences ∧ after.transport = world.transport := by
  intro world
  have running : Running world := run_running store maxMessageSize inputs
  refine ⟨running.1.distinct, ?_, ?_⟩
  · intro sent member since
    exact running.1.stored sent member since.symm.le
  · intro msgType encode turns error after live refused
    have turned : Running { world with turns := turns } :=
      Leads.running running.2 (Leads.memory ⟨Quiet.refl world, running.1⟩ rfl)
    exact sendHandshake_refused turned live msgType encode refused

/-- A Logon and an order go out; the next order's filing times out and lands
after the restart, under the number the next Logon takes. -/
example :
    let logon : MsgType := ⟨[0x41], by decide, by decide, by decide⟩
    let order : MsgType := ⟨[0x44], by decide, by decide, by decide⟩
    let done : Turn := ⟨.waiting, .done⟩
    let late : Turn := ⟨.waiting, .failed .timeout .late⟩
    let landed : Turn := ⟨.landed, .done⟩
    let frame : Nat → Option Bytes := fun _ => some []
    let world := run step (World.initial .new 64)
      [(.openSession false none, [done]), (.send logon frame, [done, done]),
        (.send order frame, [done, done]), (.send order frame, [late]), (.restart, []),
        (.openSession false none, [done]), (.send logon frame, [landed, done])]
    world.transport.map Sent.number = [(0, 1), (0, 2), (0, 3)] ∧ world.store.nextSenderSeq = 4 := by
  decide +kernel

end IronFix.Engine
