import IronFix.Engine.Sessions

/-!
# No number is used twice

Within one sequence stream every number handed to the transport is below the
store's next sender number, whatever becomes of a mutation in flight, and
below the next number of the running session. Store calls keep the first
(`Sound`) and leave the session alone (`Quiet`); a frame is handed over only
between a filing that raised both and the next store call.
-/

namespace IronFix.Engine

open Lib.Decimal Lib.Effects Lib.Runs
open IronFix.Store IronFix.Session

/-! ## The invariant -/

/-- Every number handed over since the last sequence reset is below `n`. -/
def Above (world : World) (n : Nat) : Prop :=
  ∀ sent ∈ world.transport, world.resets ≤ sent.resets → sent.seq < n

/-- The mutation leaves the next sender number above what was handed over. -/
def Safe (world : World) (call : Mutation) : Prop :=
  call.resets = false → ∀ n ∈ call.nextSender, Above world n

/-- The invariant of the store and the transport. -/
structure Sound (world : World) : Prop where
  attached : world.storeAttached = true
  closes : world.policy = .closeSession
  distinct : (world.transport.map Sent.number).Nodup
  past : ∀ sent ∈ world.transport, sent.resets ≤ world.resets
  stored : Above world world.store.nextSenderSeq
  flight : ∀ call, world.inFlight = some call → Safe world call

/-- The running session numbers from above what was handed over. -/
def Ahead (world : World) : Prop := Above world world.sequences.nextSenderSeq

/-- Nothing was handed over, and the session is as it was. -/
structure Quiet (before after : World) : Prop where
  transport : after.transport = before.transport
  sequences : after.sequences = before.sequences
  live : after.live = before.live
  attached : after.storeAttached = before.storeAttached
  policy : after.policy = before.policy
  resets : before.resets ≤ after.resets

theorem Quiet.refl (world : World) : Quiet world world := ⟨rfl, rfl, rfl, rfl, rfl, le_rfl⟩

theorem Quiet.trans {first middle last : World} (early : Quiet first middle)
    (later : Quiet middle last) : Quiet first last where
  transport := later.transport.trans early.transport
  sequences := later.sequences.trans early.sequences
  live := later.live.trans early.live
  attached := later.attached.trans early.attached
  policy := later.policy.trans early.policy
  resets := early.resets.trans later.resets

theorem Quiet.above {before after : World} (quiet : Quiet before after) {n : Nat}
    (above : Above before n) : Above after n := by
  intro sent member since
  exact above sent (quiet.transport ▸ member) (quiet.resets.trans since)

theorem Quiet.safe {before after : World} (quiet : Quiet before after) {call : Mutation}
    (safe : Safe before call) : Safe after call :=
  fun noReset n sets => quiet.above (safe noReset n sets)

theorem safe_of_resets {world : World} {call : Mutation} (resets : call.resets = true) :
    Safe world call := fun noReset => nomatch resets.symm.trans noReset

theorem safe_of_silent {world : World} {call : Mutation} (silent : call.nextSender = none) :
    Safe world call := fun _ _ sets => nomatch silent ▸ sets

/-- After a sequence reset nothing was handed over yet. -/
theorem Sound.above_of_reset {before after : World} (sound : Sound before)
    (quiet : Quiet before after) (reset : before.resets < after.resets) (n : Nat) :
    Above after n := by
  intro sent member since
  have past := sound.past sent (quiet.transport ▸ member)
  omega

/-! ## Mutations keep it -/

theorem quiet_land (world : World) (call : Mutation) : Quiet world (world.land call) := by
  refine ⟨rfl, rfl, rfl, rfl, rfl, ?_⟩
  show world.resets ≤ if call.resets then world.resets + 1 else world.resets
  split <;> omega

theorem Sound.land {world : World} (sound : Sound world) {call : Mutation}
    (safe : Safe world call) : Sound (world.land call) where
  attached := sound.attached
  closes := sound.closes
  distinct := sound.distinct
  past sent member := (sound.past sent member).trans (quiet_land world call).resets
  flight other inFlight := (quiet_land world call).safe (sound.flight other inFlight)
  stored := by
    by_cases resets : call.resets = true
    · apply sound.above_of_reset (quiet_land world call)
      show world.resets < if call.resets then world.resets + 1 else world.resets
      rw [if_pos resets]
      exact Nat.lt_succ_self _
    · apply (quiet_land world call).above
      show Above world (call.apply world.store).nextSenderSeq
      rw [call.apply_nextSenderSeq]
      cases sets : call.nextSender with
      | none => exact sound.stored
      | some n => exact safe (Bool.not_eq_true _ ▸ resets) n sets

theorem quiet_inFlight (world : World) (inFlight : Option Mutation) :
    Quiet world { world with inFlight := inFlight } := ⟨rfl, rfl, rfl, rfl, rfl, le_rfl⟩

theorem Sound.inFlight {world : World} (sound : Sound world) {inFlight : Option Mutation}
    (safe : ∀ call, inFlight = some call → Safe world call) :
    Sound { world with inFlight := inFlight } :=
  ⟨sound.attached, sound.closes, sound.distinct, sound.past, sound.stored, safe⟩

theorem quiet_settleEarlier (world : World) (earlier : Earlier) :
    Quiet world (world.settleEarlier earlier) := by
  cases earlier with
  | waiting => exact Quiet.refl world
  | lost => exact quiet_inFlight world none
  | landed =>
      unfold World.settleEarlier
      cases world.inFlight with
      | none => exact Quiet.refl world
      | some call => exact (quiet_land world call).trans (quiet_inFlight _ none)

theorem Sound.settleEarlier {world : World} (sound : Sound world) (earlier : Earlier) :
    Sound (world.settleEarlier earlier) := by
  cases earlier with
  | waiting => exact sound
  | lost => exact sound.inFlight nofun
  | landed =>
      unfold World.settleEarlier
      cases flying : world.inFlight with
      | none => exact sound
      | some call => exact (sound.land (sound.flight call flying)).inFlight nofun

theorem quiet_leave (world : World) (call : Mutation) (landing : Landing) :
    Quiet world (world.leave call landing) := by
  cases landing with
  | applied => exact quiet_land world call
  | lost => exact Quiet.refl world
  | late => exact quiet_inFlight world (some call)

theorem Sound.leave {world : World} (sound : Sound world) {call : Mutation}
    (safe : Safe world call) (landing : Landing) : Sound (world.leave call landing) := by
  cases landing with
  | applied => exact sound.land safe
  | lost => exact sound
  | late => exact sound.inFlight fun _ same => Option.some.inj same ▸ safe

/-! ## Store calls keep it -/

/-- A sound world the store calls reach from `before`. -/
def Leads (before after : World) : Prop := Quiet before after ∧ Sound after

theorem Leads.then {before middle after : World} (leads : Leads before middle)
    (quiet : Quiet middle after) (sound : Sound after) : Leads before after :=
  ⟨leads.1.trans quiet, sound⟩

/-- A change of what only the engine remembers. -/
theorem Leads.memory {before middle after : World} (leads : Leads before middle)
    (same : after = { middle with
      turns := after.turns
      owed := after.owed
      persisted := after.persisted }) : Leads before after := by
  obtain ⟨quiet, sound⟩ := leads
  rw [same]
  exact ⟨quiet.trans ⟨rfl, rfl, rfl, rfl, rfl, le_rfl⟩, sound.attached, sound.closes,
    sound.distinct, sound.past, sound.stored, sound.flight⟩

/-- What a mutation that answered leaves. -/
def Took (before : World) (call : Mutation) (after : World) : Prop :=
  after.inFlight = none ∧ (∀ n ∈ call.nextSender, after.store.nextSenderSeq = n) ∧
    (call.resets = true → before.resets < after.resets)

variable {before : World}

theorem nextTurn_keeps : Keeps (Leads before) nextTurn := by
  apply Meets.read
  intro world
  split
  · exact Meets.stops fun _ start => start.1
  · rename_i turn turns _
    apply Meets.bind (Q := fun _ => Leads before)
    · apply Meets.writes
      rintro _ ⟨leads, rfl⟩
      exact leads.memory rfl
    · intro _
      exact Meets.returns fun _ leads => leads

/-- A mutation that answered has taken effect, and nothing is in flight. -/
theorem timed_takes {call : Mutation} (safe : Safe before call) :
    Meets (Leads before) (timed call)
      (fun result after => Leads before after ∧ (result = .ok () → Took before call after))
      (fun _ => Leads before) := by
  apply Meets.bind nextTurn_keeps
  rintro ⟨earlier, fate⟩
  -- the mutation in flight lands before this one or never
  apply Meets.bind (Q := fun _ world => Leads before world ∧ world.inFlight = none)
  · apply Meets.changes
    intro world leads
    refine ⟨leads.then ((quiet_settleEarlier world earlier).trans (quiet_inFlight _ none)) ?_, rfl⟩
    exact (leads.2.settleEarlier earlier).inFlight nofun
  intro _
  have leaves : ∀ landing world, Leads before world → Leads before (world.leave call landing) :=
    fun landing world leads =>
      leads.then (quiet_leave world call landing) (leads.2.leave (leads.1.safe safe) landing)
  cases fate with
  | done =>
      apply Meets.bind
        (Q := fun _ world => Leads before world ∧ Took before call world)
      · apply Meets.changes
        rintro world ⟨leads, none⟩
        refine ⟨leaves .applied world leads, none, ?_, ?_⟩
        · intro n sets
          show (call.apply world.store).nextSenderSeq = n
          rw [call.apply_nextSenderSeq, sets, Option.getD_some]
        · intro resets
          show before.resets < if call.resets then world.resets + 1 else world.resets
          rw [if_pos resets]
          exact Nat.lt_succ_of_le leads.1.resets
      · intro _
        exact Meets.returns fun _ taken => ⟨taken.1, fun _ => taken.2⟩
  | failed error landing =>
      apply Meets.bind (Q := fun _ => Leads before)
      · exact Meets.changes fun world start => leaves landing world start.1
      · intro _
        exact Meets.returns fun _ leads => ⟨leads, nofun⟩
  | cut landing =>
      apply Meets.bind (Q := fun _ => Leads before)
      · exact Meets.changes fun world start => leaves landing world start.1
      · intro _
        exact Meets.stops fun _ leads => leads

theorem timed_keeps {call : Mutation} (safe : Safe before call) :
    Keeps (Leads before) (timed call) :=
  (timed_takes safe).weaken (fun _ leads => leads) fun _ _ taken => taken.1

theorem refresh_keeps : Keeps (Leads before) refresh := by
  apply Meets.bind nextTurn_keeps
  rintro ⟨earlier, fate⟩
  apply Meets.bind (Q := fun _ => Leads before)
  · exact Meets.changes fun world leads =>
      leads.then (quiet_settleEarlier world earlier) (leads.2.settleEarlier earlier)
  intro _
  cases fate with
  | done => exact Meets.returns fun _ leads => leads
  | failed error landing => exact Meets.stops fun _ leads => leads
  | cut landing => exact Meets.stops fun _ leads => leads

theorem answer_keeps {α : Type} {I : World → Prop} (result : Except StoreError α) :
    Keeps I (answer result) := by
  cases result with
  | ok a => exact Meets.returns fun _ holds => holds
  | error error => exact Meets.stops fun _ holds => holds

/-! ## The persistence steps keep it -/

theorem oweReset_keeps : Keeps (Leads before) oweReset :=
  fun _ leads => leads.memory rfl

theorem resetPaid_keeps (ticket : Nat) : Keeps (Leads before) (resetPaid ticket) :=
  fun _ leads => leads.memory rfl

theorem syncMarker_keeps : Keeps (Leads before) syncMarker := by
  apply Meets.read
  intro world
  dsimp only
  split
  · exact Meets.returns fun _ start => start.1
  · apply Meets.bind (Q := fun _ => Leads before)
    · exact (timed_keeps (safe_of_silent rfl)).weaken (fun _ start => start.1) fun _ _ leads => leads
    intro result
    cases result with
    | ok _ => exact Meets.returns fun _ leads => leads
    | error error =>
        dsimp only
        split
        · exact Meets.returns fun _ leads => leads
        · apply Meets.bind oweReset_keeps
          intro _
          exact Meets.returns fun _ leads => leads

theorem mutate_takes {call : Mutation} (safe : Safe before call) :
    Meets (Leads before) (mutate call)
      (fun result after => Leads before after ∧ (result = .ok () → Took before call after))
      (fun _ => Leads before) := by
  apply Meets.bind (timed_takes safe)
  intro result
  cases result with
  | ok _ => exact Meets.returns fun _ taken => taken
  | error error =>
      apply Meets.bind (Q := fun _ => Leads before)
      · exact oweReset_keeps.weaken (fun _ taken => taken.1) fun _ _ leads => leads
      intro _
      apply Meets.bind syncMarker_keeps
      intro _
      exact Meets.returns fun _ leads => ⟨leads, nofun⟩

/-- The policy of the sound worlds closes the session. -/
theorem onFailure_closes (error : StoreError) :
    Meets (Leads before) (onFailure error)
      (fun result after => Leads before after ∧ result = .error error) (fun _ => Leads before) := by
  apply Meets.read
  intro world
  apply Meets.returns
  rintro _ ⟨leads, rfl⟩
  refine ⟨leads, ?_⟩
  rw [leads.2.closes]
  rfl

theorem persist_keeps {call : Mutation} (safe : Safe before call) :
    Keeps (Leads before) (persist call) := by
  apply Meets.bind (mutate_takes safe)
  intro result
  cases result with
  | ok _ => exact Meets.returns fun _ taken => taken.1
  | error error =>
      exact (onFailure_closes error).weaken (fun _ taken => taken.1) fun _ _ closed => closed.1

/-- A frame that was filed left the next sender number in the store, and
nothing in flight. -/
theorem fileOutbound_files {seq nextSender : Nat} {msgType : MsgType} {frame : Bytes}
    (above : Above before nextSender) :
    Meets (Leads before) (fileOutbound seq msgType frame nextSender)
      (fun result after => Leads before after ∧ ∀ filed, result = .ok filed →
        after.inFlight = none ∧ after.store.nextSenderSeq = nextSender)
      (fun _ => Leads before) := by
  have safe : Safe before (.fileOutbound seq msgType frame nextSender) :=
    fun _ n sets => Option.some.inj sets ▸ above
  apply Meets.bind (mutate_takes safe)
  intro result
  cases result with
  | ok _ =>
      apply Meets.returns
      intro _ taken
      obtain ⟨none, sets, -⟩ := taken.2 rfl
      exact ⟨taken.1, fun _ _ => ⟨none, sets nextSender rfl⟩⟩
  | error error =>
      apply Meets.bind
        (Q := fun result after => Leads before after ∧ result = .error error)
      · exact (onFailure_closes error).weaken (fun _ taken => taken.1) fun _ _ closed => closed
      intro result
      cases result with
      | error other => exact Meets.returns fun _ closed => ⟨closed.1, nofun⟩
      | ok _ => exact fun _ closed => nomatch closed.2

theorem resetIsOwed_keeps : Keeps (Leads before) resetIsOwed := by
  apply Meets.read
  intro world
  split
  · apply Meets.bind (Q := fun _ => Leads before)
    · apply Meets.writes
      rintro _ ⟨leads, rfl⟩
      exact leads.memory rfl
    intro _
    exact Meets.returns fun _ leads => leads
  · exact Meets.returns fun _ start => start.1

theorem oweDurably_keeps : Keeps (Leads before) oweDurably := by
  apply Meets.bind oweReset_keeps
  intro ticket
  apply Meets.bind syncMarker_keeps
  intro result
  apply Meets.bind (answer_keeps result)
  intro _
  exact Meets.returns fun _ leads => leads

theorem settle_keeps (ticket : Option Nat) : Keeps (Leads before) (settle ticket) := by
  have marked : Keeps (Leads before) (do
      let world ← get
      if world.storeAttached then
        let result ← syncMarker
        if world.policy.closesSession then answer result else return ()
      else return ()) := by
    apply Meets.read
    intro world
    split
    · apply Meets.bind (Q := fun _ => Leads before)
      · exact syncMarker_keeps.weaken (fun _ start => start.1) fun _ _ leads => leads
      intro result
      split
      · exact answer_keeps result
      · exact Meets.returns fun _ leads => leads
    · exact Meets.returns fun _ start => start.1
  cases ticket with
  | none => exact marked
  | some ticket => exact Meets.bind (resetPaid_keeps ticket) fun _ => marked

/-! ## Every seed is ahead -/

/-- What a session may number from. -/
def Seeds (before : World) (seeded : Seeded) (after : World) : Prop :=
  Leads before after ∧ Above after seeded.sequences.nextSenderSeq

theorem seedReset_seeds (sound : Sound before) :
    Meets (Leads before) seedReset (Seeds before) (fun _ => Leads before) := by
  apply Meets.read
  intro world
  split
  · apply Meets.bind
      (Q := fun result after => Leads before after ∧ (result = .ok () → Took before (.resetTo 1 1) after))
    · exact (timed_takes (safe_of_resets rfl)).weaken (fun _ start => start.1) fun _ _ taken => taken
    intro result
    cases result with
    | error error => exact fun _ taken => taken.1
    | ok _ =>
        intro after taken
        exact ⟨taken.1, sound.above_of_reset taken.1.1 ((taken.2 rfl).2.2 rfl) _⟩
  · rename_i detached
    rintro _ ⟨leads, rfl⟩
    exact absurd leads.2.attached detached

theorem seedInitial_seeds (checkStore : Bool) (checks : checkStore = true) (initial : Nat × Nat) :
    Meets (Leads before) (seedInitial checkStore initial) (Seeds before) (fun _ => Leads before) := by
  subst checks
  unfold seedInitial
  split
  · exact Meets.stops fun _ leads => leads
  · rename_i sequences seeded
    apply Meets.bind refresh_keeps
    intro _
    apply Meets.read
    intro world
    split
    · exact Meets.stops fun _ start => start.1
    · rename_i notBelow
      apply Meets.returns
      rintro _ ⟨leads, rfl⟩
      refine ⟨leads, ?_⟩
      intro sent member since
      have stored := leads.2.stored sent member since
      have sender := seedFromInitial_sender seeded
      simp only [initialBelowStore, decide_eq_true_eq] at notBelow
      show sent.seq < sequences.nextSenderSeq
      omega

theorem seedStore_seeds : Meets (Leads before) seedStore (Seeds before) (fun _ => Leads before) := by
  apply Meets.bind refresh_keeps
  intro _
  apply Meets.read
  intro world
  apply Meets.returns
  rintro _ ⟨leads, rfl⟩
  refine ⟨leads, ?_⟩
  intro sent member since
  exact (leads.2.stored sent member since).trans_le (le_seedFromStore _ _)

/-- The counters a session starts from are above every number handed over. -/
theorem seedSession_seeds (sound : Sound before) (reset : Bool) (initial : Option (Nat × Nat)) :
    Meets (Leads before) (seedSession reset initial) (Seeds before) (fun _ => Leads before) := by
  apply Meets.read
  intro world s start
  obtain ⟨leads, rfl⟩ := start
  have source : decideSeedSource reset initial.isSome s.storeAttached s.policy.closesSession
      = decideSeedSource reset initial.isSome true true := by
    rw [leads.2.attached, leads.2.closes]
    rfl
  rw [source]
  cases reset with
  | true => exact seedReset_seeds sound s leads
  | false =>
      cases initial with
      | none => exact seedStore_seeds s leads
      | some initial => exact seedInitial_seeds true rfl initial s leads

/-! ## A frame is filed, spent and handed over -/

/-- A frame numbered `seq` is filed and its number spent. -/
structure Filed (before : World) (seq : Nat) (after : World) : Prop where
  sound : Sound after
  above : Above after seq
  landed : after.inFlight = none
  stored : after.store.nextSenderSeq = seq + 1
  spent : after.sequences.nextSenderSeq = seq + 1

/-- The number spent is the one the frame was built under. -/
theorem spend_next {world : World} {seq : Nat} (next : world.sequences.nextSenderSeq = seq)
    (fits : checkedAdd u64Max seq 1 = some (seq + 1)) :
    spend seq world
      = .ok () { world with sequences := { world.sequences with nextSenderSeq := seq + 1 } } := by
  have allocates : world.sequences.tryAllocateSenderSeq
      = .ok (seq, { world.sequences with nextSenderSeq := seq + 1 }) := by
    unfold SequenceManager.tryAllocateSenderSeq
    rw [next, fits]
  unfold spend
  dsimp only [bind, EStateM.bind, get, getThe, MonadStateOf.get, EStateM.get]
  rw [allocates]
  show (if seq ≠ seq then throw _ else pure () : Program Unit) _ = _
  rw [if_neg (not_not.mpr rfl)]
  rfl

theorem spend_spends {seq : Nat} (ahead : Above before seq)
    (next : before.sequences.nextSenderSeq = seq)
    (fits : checkedAdd u64Max seq 1 = some (seq + 1)) :
    Meets (fun world => Leads before world ∧ world.inFlight = none ∧
        world.store.nextSenderSeq = seq + 1)
      (spend seq) (fun _ => Filed before seq) (fun _ => Leads before) := by
  rintro world ⟨leads, landed, stored⟩
  rw [spend_next ((congrArg _ leads.1.sequences).trans next) fits]
  refine ⟨?_, leads.1.above ahead, landed, stored, rfl⟩
  exact ⟨leads.2.attached, leads.2.closes, leads.2.distinct, leads.2.past, leads.2.stored,
    leads.2.flight⟩

theorem fileAndSpend_spends {seq : Nat} (ahead : Above before seq)
    (next : before.sequences.nextSenderSeq = seq) (msgType : MsgType) (frame : Bytes) :
    Meets (Leads before) (fileAndSpend seq msgType frame) (fun _ => Filed before seq)
      (fun _ => Leads before) := by
  unfold fileAndSpend
  split
  · exact Meets.stops fun _ leads => leads
  · rename_i after fits
    obtain ⟨rfl, room⟩ := checkedAdd_eq_some.mp fits
    have raised : Above before (seq + 1) :=
      fun sent member since => (ahead sent member since).trans (Nat.lt_succ_self seq)
    apply Meets.read
    intro world
    split
    · apply Meets.bind (Q := fun _ => Leads before)
      · apply Meets.writes
        rintro _ ⟨leads, rfl⟩
        exact leads.memory rfl
      intro _
      apply Meets.bind (fileOutbound_files raised)
      intro result
      cases result with
      | error error => exact fun _ filed => filed.1
      | ok filed =>
          show Meets _ (spend seq >>= fun _ => pure filed) _ _
          apply Meets.bind (Q := fun _ => Filed before seq)
          · exact (spend_spends ahead next fits).weaken
              (fun _ filing => ⟨filing.1, filing.2 filed rfl⟩) fun _ _ spent => spent
          intro _
          exact Meets.returns fun _ spent => spent
    · rename_i detached
      rintro _ ⟨leads, rfl⟩
      exact absurd leads.2.attached detached

/-- Handing over a filed frame. -/
theorem Filed.hand {after : World} {seq : Nat} (filed : Filed before seq after) (frame : Bytes) :
    Sound (after.hand seq frame) ∧ Ahead (after.hand seq frame) := by
  have raised : Above (after.hand seq frame) (seq + 1) := by
    intro sent member since
    rcases List.mem_append.mp member with earlier | new
    · exact (filed.above sent earlier since).trans (Nat.lt_succ_self seq)
    · rw [List.mem_singleton.mp new]
      exact Nat.lt_succ_self seq
  refine ⟨?_, ?_⟩
  · refine ⟨filed.sound.attached, filed.sound.closes, ?_, ?_, ?_, ?_⟩
    · show ((after.transport ++ [_]).map Sent.number).Nodup
      rw [List.map_append, List.nodup_append]
      refine ⟨filed.sound.distinct, List.nodup_singleton _, ?_⟩
      intro number earlier other new same
      obtain ⟨sent, member, rfl⟩ := List.mem_map.mp earlier
      rw [List.mem_singleton.mp new] at same
      obtain ⟨resets, seqs⟩ := Prod.mk.inj same
      exact absurd (show sent.seq = seq from seqs) (filed.above sent member (le_of_eq resets.symm)).ne
    · intro sent member
      rcases List.mem_append.mp member with earlier | new
      · exact filed.sound.past sent earlier
      · rw [List.mem_singleton.mp new]
        exact le_rfl
    · show Above (after.hand seq frame) after.store.nextSenderSeq
      rw [filed.stored]
      exact raised
    · intro call flying
      exact nomatch filed.landed.symm.trans flying
  · show Above (after.hand seq frame) after.sequences.nextSenderSeq
    rw [filed.spent]
    exact raised

/-- A world between two actions: a running session is ahead. -/
def Running (world : World) : Prop := Sound world ∧ (world.live = true → Ahead world)

/-- Where an action stops: a cut leaves no session to be ahead. -/
def Stopped (stop : Stop) (world : World) : Prop :=
  Sound world ∧ (stop ≠ .cut → world.live = true → Ahead world)

theorem Leads.running {after : World} (ahead : before.live = true → Ahead before)
    (leads : Leads before after) : Running after := by
  refine ⟨leads.2, fun live => ?_⟩
  unfold Ahead
  rw [leads.1.sequences]
  exact leads.1.above (ahead (leads.1.live ▸ live))

theorem Running.stopped {world : World} (running : Running world) (stop : Stop) :
    Stopped stop world := ⟨running.1, fun _ => running.2⟩

theorem feedFrame_feeds {seq : Nat} (frame : Bytes) :
    Meets (Filed before seq) (feedFrame seq frame) (fun _ => Running) Stopped := by
  have kept : ∀ world, Filed before seq world → Running world := by
    intro world filed
    refine ⟨filed.sound, fun _ => ?_⟩
    unfold Ahead
    rw [filed.spent]
    exact fun sent member since => (filed.above sent member since).trans (Nat.lt_succ_self seq)
  have handed : ∀ world, Filed before seq world → Running (world.hand seq frame) :=
    fun world filed => ⟨(filed.hand frame).1, fun _ => (filed.hand frame).2⟩
  apply Meets.bind (Q := fun _ => Filed before seq)
  · apply Meets.read
    intro world
    split
    · exact Meets.stops fun _ start => (kept _ start.1).stopped _
    · rename_i turn turns _
      apply Meets.bind (Q := fun _ => Filed before seq)
      · apply Meets.writes
        rintro _ ⟨filed, rfl⟩
        exact ⟨⟨filed.sound.attached, filed.sound.closes, filed.sound.distinct, filed.sound.past,
          filed.sound.stored, filed.sound.flight⟩, filed.above, filed.landed, filed.stored,
          filed.spent⟩
      intro _
      exact Meets.returns fun _ filed => filed
  rintro ⟨earlier, fate⟩
  cases fate with
  | done => exact Meets.changes handed
  | failed error landing =>
      cases landing with
      | lost => exact fun world filed => (kept world filed).stopped _
      | applied => exact fun world filed => (handed world filed).stopped _
      | late => exact fun world filed => (handed world filed).stopped _
  | cut landing =>
      cases landing with
      | lost => exact fun world filed => (kept world filed).stopped _
      | applied => exact fun world filed => (handed world filed).stopped _
      | late => exact fun world filed => (handed world filed).stopped _

/-- What only calls the store leaves a running session running. -/
theorem running_of_keeps {α : Type} {program : Program α}
    (keeps : ∀ before, Keeps (Leads before) program) :
    Meets Running program (fun _ => Running) Stopped := by
  intro world running
  have met := keeps world world ⟨Quiet.refl world, running.1⟩
  cases ends : program world with
  | ok a after =>
      rw [ends] at met
      exact Leads.running running.2 met
  | error stop after =>
      rw [ends] at met
      exact (Leads.running running.2 met).stopped stop

theorem writeAt_running {seq : Nat} (msgType : MsgType) (encode : Nat → Option Bytes) :
    Meets (fun world => Running world ∧ Above world seq ∧ world.sequences.nextSenderSeq = seq)
      (writeAt seq msgType encode) (fun _ => Running) Stopped := by
  apply Meets.read
  intro world
  split
  · exact Meets.stops fun _ start => start.1.1.stopped _
  · rename_i frame _
    split
    · exact Meets.stops fun _ start => start.1.1.stopped _
    · apply Meets.bind (Q := fun _ after => Filed world seq after)
      · rintro _ ⟨⟨running, ahead, next⟩, rfl⟩
        have spends := fileAndSpend_spends ahead next msgType frame _
          ⟨Quiet.refl _, running.1⟩
        revert spends
        cases fileAndSpend seq msgType frame _ with
        | ok filed after => exact id
        | error stop after => exact fun leads => (Leads.running running.2 leads).stopped stop
      intro _
      exact feedFrame_feeds frame

theorem sendHandshake_running (msgType : MsgType) (encode : Nat → Option Bytes) :
    Meets (fun world => Running world ∧ world.live = true) (sendHandshake msgType encode)
      (fun _ => Running) Stopped := by
  apply Meets.read
  intro world
  exact (writeAt_running msgType encode).weaken
    (fun _ start => ⟨start.1.1, start.2 ▸ start.1.1.2 start.1.2, start.2 ▸ rfl⟩)
    fun _ _ running => running

/-! ## Sessions open -/

theorem gone_running {world : World} (sound : Sound world) : Running world.gone :=
  ⟨⟨sound.attached, sound.closes, sound.distinct, sound.past, sound.stored, sound.flight⟩, nofun⟩

theorem Seeds.running {seeded : Seeded} {after : World} (seeds : Seeds before seeded after)
    (ticket : Option Nat) : Running (after.start seeded ticket) := by
  obtain ⟨leads, above⟩ := seeds
  exact ⟨⟨leads.2.attached, leads.2.closes, leads.2.distinct, leads.2.past, leads.2.stored,
    leads.2.flight⟩, fun _ => above⟩

/-- Seeding ends in a session that is ahead. -/
theorem seeding_running (sound : Sound before) (reset : Bool) (initial : Option (Nat × Nat))
    (ticket : Option Nat) :
    Meets (Leads before) (do
      let seeded ← seedSession reset initial
      modify fun world => world.start seeded ticket) (fun _ => Running) (fun _ => Leads before) := by
  apply Meets.bind (seedSession_seeds sound reset initial)
  intro seeded
  exact Meets.changes fun _ seeds => seeds.running ticket

theorem reportInboundLoss_keeps : Keeps (Leads before) reportInboundLoss := by
  apply Meets.read
  intro world
  split
  · split
    · exact Meets.returns fun _ start => start.1
    · rename_i span _
      apply Meets.bind (Q := fun _ => Leads before)
      · exact (persist_keeps (safe_of_silent rfl)).weaken (fun _ start => start.1)
          fun _ _ leads => leads
      intro result
      exact answer_keeps result
  · exact Meets.returns fun _ start => start.1

/-- Dropping the session first, a program that opens one ends sound. -/
theorem running_of_opening {program : Program Unit}
    (opens : ∀ before, Sound before →
      Meets (Leads before) program (fun _ => Running) (fun _ => Leads before)) :
    Meets Running (modify World.gone >>= fun _ => program) (fun _ => Running) Stopped := by
  apply Meets.bind (Q := fun _ world => Sound world ∧ world.live = false)
  · exact Meets.changes fun _ running => ⟨(gone_running running.1).1, rfl⟩
  rintro _ world ⟨sound, idle⟩
  have met := opens world sound world ⟨Quiet.refl _, sound⟩
  cases ends : program world with
  | ok _ after =>
      rw [ends] at met
      exact met
  | error stop after =>
      rw [ends] at met
      exact (Leads.running (fun live => nomatch idle.symm.trans live) met).stopped stop

theorem openSession_running (declared : Bool) (initial : Option (Nat × Nat)) :
    Meets Running (openSession declared initial) (fun _ => Running) Stopped := by
  apply running_of_opening
  intro before sound
  apply Meets.bind reportInboundLoss_keeps
  intro _
  apply Meets.bind resetIsOwed_keeps
  intro owed
  dsimp only
  apply Meets.read
  intro world
  have seeds := seeding_running sound (initiatorResets declared owed) initial
  split
  · apply Meets.bind (Q := fun _ => Leads before)
    · apply Meets.bind (Q := fun _ => Leads before)
      · exact oweDurably_keeps.weaken (fun _ start => start.1) fun _ _ leads => leads
      intro ticket
      exact Meets.returns fun _ leads => leads
    intro ticket
    exact seeds ticket
  · exact (seeds none).weaken (fun _ start => start.1) fun _ _ running => running

theorem refuseAuthenticated_running (initial : Option (Nat × Nat)) :
    Meets Running (refuseAuthenticated initial) (fun _ => Running) Stopped :=
  running_of_opening fun _ sound => seeding_running sound false initial none

/-! ## A running session -/

/-- The number after an adopted reset is above the new stream's none. -/
theorem adoptAckReset_running : Meets Running adoptAckReset (fun _ => Running) Stopped := by
  intro world running
  have adopts : Meets (Leads world) adoptAckReset (fun _ => Running) (fun _ => Leads world) := by
    apply Meets.read
    intro seen
    split
    · apply Meets.bind (Q := fun _ => Leads world)
      · exact oweDurably_keeps.weaken (fun _ start => start.1) fun _ _ leads => leads
      intro ticket
      apply Meets.bind (mutate_takes (safe_of_resets rfl))
      intro result
      cases result with
      | error error => exact fun _ taken => taken.1
      | ok _ =>
          intro after taken
          have leads := taken.1
          have fresh := running.1.above_of_reset leads.1 ((taken.2 rfl).2.2 rfl)
          exact ⟨⟨leads.2.attached, leads.2.closes, leads.2.distinct, leads.2.past, leads.2.stored,
            leads.2.flight⟩, fun _ => fresh _⟩
    · rename_i detached
      rintro _ ⟨leads, rfl⟩
      exact absurd leads.2.attached detached
  have met := adopts world ⟨Quiet.refl world, running.1⟩
  cases ends : adoptAckReset world with
  | ok _ after =>
      rw [ends] at met
      exact met
  | error stop after =>
      rw [ends] at met
      exact (Leads.running running.2 met).stopped stop

theorem persistTargetWith_keeps (next : Nat) : Keeps (Leads before) (persistTargetWith next) := by
  apply Meets.read
  intro world
  split
  · split
    · exact Meets.returns fun _ start => start.1
    · apply Meets.bind (Q := fun _ => Leads before)
      · apply Meets.writes
        rintro _ ⟨leads, rfl⟩
        exact leads.memory rfl
      intro _
      exact persist_keeps (safe_of_silent rfl)
  · exact Meets.returns fun _ start => start.1

theorem acceptInbound_running : Meets Running acceptInbound (fun _ => Running) Stopped := by
  intro world running
  have accepts : Meets (fun after => Leads world after ∧ after = world) acceptInbound
      (fun _ => Running) (fun _ => Leads world) := by
    apply Meets.read
    intro seen
    split
    · exact Meets.stops fun _ start => start.1.1
    · rename_i sequences increments
      apply Meets.bind (Q := fun _ after => Leads world after ∧ seen = world)
      · rintro _ ⟨⟨leads, rfl⟩, rfl⟩
        have met := persistTargetWith_keeps sequences.nextTargetSeq _ leads
        revert met
        cases persistTargetWith sequences.nextTargetSeq _ with
        | ok a after => exact fun leads => ⟨leads, rfl⟩
        | error stop after => exact id
      intro result
      cases result with
      | error error => exact fun _ start => start.1
      | ok _ =>
          rintro after ⟨leads, rfl⟩
          have same : sequences.nextSenderSeq = seen.sequences.nextSenderSeq := by
            unfold SequenceManager.tryIncrementTargetSeq at increments
            split at increments
            · cases increments
              rfl
            · cases increments
          refine ⟨⟨leads.2.attached, leads.2.closes, leads.2.distinct, leads.2.past, leads.2.stored,
            leads.2.flight⟩, fun live => ?_⟩
          show Above after sequences.nextSenderSeq
          rw [same]
          exact leads.1.above (running.2 (leads.1.live ▸ live))
  have met := accepts world ⟨⟨Quiet.refl world, running.1⟩, rfl⟩
  cases ends : acceptInbound world with
  | ok _ after =>
      rw [ends] at met
      exact met
  | error stop after =>
      rw [ends] at met
      exact (Leads.running running.2 met).stopped stop

end IronFix.Engine
