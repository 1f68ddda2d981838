import IronFix.Engine.OwedReset

/-!
# A promised reset is not forgotten

Once `owe_durably` has returned, no clear is decided before the reset is paid,
and none decided earlier is still to land, provided the call wrote the marker
itself whenever such a clear was outstanding.
-/

namespace IronFix.Engine

open Lib.Decimal Lib.Transitions

namespace ResetKeeping

/-! ## What holds of the record and the marker -/

structure Sound (keeping : ResetKeeping) : Prop where
  covers : ∀ ticket ∈ keeping.paid, ticket ≤ keeping.record.settled
  settled : keeping.record.settled = 0 ∨ keeping.record.settled ∈ keeping.paid
  paid : ∀ ticket ∈ keeping.paid, ticket ∈ keeping.issued
  issued : keeping.issued.Pairwise (· > ·)
  numbered : ∀ ticket ∈ keeping.issued, 0 < ticket ∧ ticket ≤ keeping.record.recorded
  promised : ∀ ticket ∈ keeping.promised, ticket ∈ keeping.issued
  waiting : ∀ call ∈ keeping.waiting, ∀ ticket ∈ call.ticket, ticket ∈ keeping.issued
  holding : ∀ call stage, keeping.holder = some (call, stage) → ∀ ticket ∈ call.ticket, ticket ∈ keeping.issued
  /-- What a call loaded covers its own obligation, and every promise. -/
  loaded : ∀ call loaded, keeping.holder = some (call, .loaded loaded) → loaded ≤ keeping.record.recorded ∧
    (∀ ticket ∈ call.ticket, ticket ≤ loaded) ∧ (∀ ticket ∈ keeping.promised, ticket ≤ loaded) ∧
    (keeping.inherited = true → keeping.paid = [] → 0 < loaded)
  /-- A clear is written only when no promise is unpaid. -/
  writing : ∀ call write, keeping.holder = some (call, .writing write) → write.owed = false →
    (∀ ticket ∈ call.ticket, ticket ≤ keeping.record.settled) ∧ ¬ keeping.Promised
  decided : ∀ call upTo, keeping.holder = some (call, .writing (.clear upTo)) → upTo ≤ keeping.record.settled
  recovering : ∀ loaded, some loaded ∈ keeping.recovering → loaded ≤ keeping.record.recorded
  began : keeping.attended = false → keeping.record.recorded = 0 → keeping.waiting = [] ∧ keeping.holder = none
  recovered : keeping.inherited = true → keeping.paid = [] → keeping.attended = true → 0 < keeping.record.recorded
  clears : ∀ upTo, .clear upTo ∈ keeping.outstanding → upTo ≤ keeping.record.settled
  kept : keeping.Promised → keeping.marker = true ∧ ∀ write ∈ keeping.outstanding, write.owed = true

theorem start_sound (marker : Bool) : (start marker).Sound where
  covers ticket inside := by cases inside
  settled := .inl rfl
  paid ticket inside := by cases inside
  issued := List.Pairwise.nil
  numbered ticket inside := by cases inside
  promised ticket inside := by cases inside
  waiting call inside := by cases inside
  holding call stage held := by cases held
  loaded call loaded held := by cases held
  writing call write held := by cases held
  decided call upTo held := by cases held
  recovering loaded inside := by cases inside
  began _ _ := ⟨rfl, rfl⟩
  recovered inherited := by cases inherited
  clears upTo inside := by cases inside
  kept promised := by
    rcases promised with ⟨ticket, inside, _⟩ | ⟨inherited, _⟩
    · cases inside
    · cases inherited

/-- An obligation is settled exactly when it or a later one was paid. -/
theorem Sound.settled_of_paid {keeping : ResetKeeping} (sound : keeping.Sound) {ticket : Nat}
    (unpaid : keeping.Unpaid ticket) (positive : 0 < ticket) : keeping.record.settled < ticket := by
  rcases sound.settled with none | paid
  · rw [none]
    exact positive
  · exact unpaid _ paid

theorem Sound.not_unpaid {keeping : ResetKeeping} (sound : keeping.Sound) {ticket : Nat} (positive : 0 < ticket)
    (settled : ticket ≤ keeping.record.settled) : ¬ keeping.Unpaid ticket := by
  intro unpaid
  exact absurd (sound.settled_of_paid unpaid positive) (Nat.not_lt.mpr settled)

/-- With every promise at most `loaded`, something is owed while a promise is unpaid. -/
theorem Sound.owed_of_promised {keeping : ResetKeeping} (sound : keeping.Sound) {loaded : Nat}
    (covers : ∀ ticket ∈ keeping.promised, ticket ≤ loaded)
    (inherits : keeping.inherited = true → keeping.paid = [] → 0 < loaded) (promised : keeping.Promised) :
    keeping.record.settled < loaded := by
  rcases promised with ⟨ticket, inside, unpaid⟩ | ⟨inherited, none⟩
  · have positive := (sound.numbered ticket (sound.promised ticket inside)).1
    exact Nat.lt_of_lt_of_le (sound.settled_of_paid unpaid positive) (covers ticket inside)
  · rcases sound.settled with zero | paid
    · rw [zero]
      exact inherits inherited none
    · rw [none] at paid
      cases paid

/-! ## Steps -/

theorem owe_eq {keeping : ResetKeeping} (room : keeping.record.recorded < u64Max) :
    keeping.owe = (keeping.record.recorded + 1, { keeping with
      record := { keeping.record with recorded := keeping.record.recorded + 1 }
      issued := (keeping.record.recorded + 1) :: keeping.issued }) := by
  have next : checkedAdd u64Max keeping.record.recorded 1 = some (keeping.record.recorded + 1) :=
    checkedAdd_eq_some.mpr ⟨rfl, room⟩
  unfold owe OwedReset.owe
  rw [next]

/-- An obligation is recorded, under a number no ticket has had. -/
theorem Sound.owe {keeping : ResetKeeping} (sound : keeping.Sound) (room : keeping.record.recorded < u64Max) :
    keeping.owe.2.Sound := by
  rw [owe_eq room]
  have older {ticket : Nat} (inside : ticket ∈ keeping.issued) :
      ticket ∈ (keeping.record.recorded + 1) :: keeping.issued := List.mem_cons_of_mem _ inside
  exact { sound with
    paid := fun ticket inside => older (sound.paid ticket inside)
    issued := List.pairwise_cons.mpr
      ⟨fun ticket inside => Nat.lt_succ_of_le (sound.numbered ticket inside).2, sound.issued⟩
    numbered := by
      intro ticket inside
      rcases List.mem_cons.mp inside with rfl | inside
      · exact ⟨Nat.succ_pos _, Nat.le_refl _⟩
      · obtain ⟨positive, recorded⟩ := sound.numbered ticket inside
        exact ⟨positive, Nat.le_succ_of_le recorded⟩
    promised := fun ticket inside => older (sound.promised ticket inside)
    waiting := fun call inside ticket isTicket => older (sound.waiting call inside ticket isTicket)
    holding := fun call stage held ticket isTicket => older (sound.holding call stage held ticket isTicket)
    loaded := by
      intro call loaded held
      obtain ⟨recorded, rest⟩ := sound.loaded call loaded held
      exact ⟨Nat.le_succ_of_le recorded, rest⟩
    recovering := fun loaded inside => Nat.le_succ_of_le (sound.recovering loaded inside)
    began := fun _ impossible => absurd impossible (Nat.succ_ne_zero _)
    recovered := fun _ _ _ => Nat.succ_pos _ }

/-- A call joins the queue for the lock. -/
theorem Sound.join {keeping : ResetKeeping} (sound : keeping.Sound) (call : SyncCall)
    (ticket : ∀ ticket ∈ call.ticket, ticket ∈ keeping.issued)
    (may : keeping.attended = true ∨ 0 < keeping.record.recorded) :
    Sound { keeping with waiting := keeping.waiting ++ [call] } :=
  { sound with
    waiting := by
      intro other inside
      rcases List.mem_append.mp inside with old | new
      · exact sound.waiting other old
      · rw [List.mem_singleton.mp new]
        exact ticket
    began := by
      intro unattended none
      rcases may with attended | recorded
      · have unattended : keeping.attended = false := unattended
        rw [attended] at unattended
        cases unattended
      · exact absurd none (Nat.ne_of_gt recorded) }

/-- Paying only ever ends promises. -/
theorem Promised.of_pay {keeping : ResetKeeping} {ticket : Nat}
    (promised : Promised { keeping with
      record := keeping.record.pay ticket
      paid := ticket :: keeping.paid }) : keeping.Promised := by
  rcases promised with ⟨other, inside, unpaid⟩ | ⟨_, impossible⟩
  · exact .inl ⟨other, inside, fun paid here => unpaid paid (List.mem_cons_of_mem _ here)⟩
  · cases impossible

theorem Sound.pay {keeping : ResetKeeping} (sound : keeping.Sound) {ticket : Nat} (issued : ticket ∈ keeping.issued) :
    Sound { keeping with
      record := keeping.record.pay ticket
      paid := ticket :: keeping.paid } :=
  { sound with
    covers := by
      intro other inside
      rcases List.mem_cons.mp inside with rfl | inside
      · exact Nat.le_max_right _ _
      · exact Nat.le_trans (sound.covers other inside) (Nat.le_max_left _ _)
    settled := by
      show max keeping.record.settled ticket = 0 ∨ max keeping.record.settled ticket ∈ ticket :: keeping.paid
      rcases Nat.le_total keeping.record.settled ticket with below | above
      · rw [Nat.max_eq_right below]
        exact .inr List.mem_cons_self
      · rw [Nat.max_eq_left above]
        exact sound.settled.imp id fun paid => List.mem_cons_of_mem _ paid
    paid := by
      intro other inside
      rcases List.mem_cons.mp inside with rfl | inside
      · exact issued
      · exact sound.paid other inside
    loaded := by
      intro call loaded held
      obtain ⟨recorded, own, promised, _⟩ := sound.loaded call loaded held
      exact ⟨recorded, own, promised, fun _ impossible => (by cases impossible)⟩
    writing := by
      intro call write held isClear
      obtain ⟨own, none⟩ := sound.writing call write held isClear
      refine ⟨?_, fun promised => none (Promised.of_pay promised)⟩
      exact fun other isTicket => Nat.le_trans (own other isTicket) (Nat.le_max_left _ _)
    decided := fun call upTo held => Nat.le_trans (sound.decided call upTo held) (Nat.le_max_left _ _)
    recovered := fun _ impossible => by cases impossible
    clears := fun upTo inside => Nat.le_trans (sound.clears upTo inside) (Nat.le_max_left _ _)
    kept := fun promised => sound.kept (Promised.of_pay promised) }

/-- `reset_is_owed` has looked at the marker, and owes what an earlier process promised. -/
theorem Sound.attended {keeping : ResetKeeping} (sound : keeping.Sound) (recovering : List (Option Nat))
    (fewer : ∀ loaded, some loaded ∈ recovering → some loaded ∈ keeping.recovering)
    (recovered : keeping.inherited = true → keeping.paid = [] → 0 < keeping.record.recorded) :
    Sound { keeping with
      recovering
      attended := true } :=
  { sound with
    recovering := fun loaded inside => sound.recovering loaded (fewer loaded inside)
    began := fun impossible => by cases impossible
    recovered := fun inherited none _ => recovered inherited none }

/-- The holder lets go of the lock without an answer for its caller. -/
theorem Sound.unlock {keeping : ResetKeeping} (sound : keeping.Sound) : Sound { keeping with holder := none } :=
  { sound with
    holding := fun call stage held => by cases held
    loaded := fun call loaded held => by cases held
    writing := fun call write held => by cases held
    decided := fun call upTo held => by cases held
    began := fun unattended none => ⟨(sound.began unattended none).1, rfl⟩ }

/-- The holder returns `Ok`: a promise, if it was an `owe_durably`. -/
theorem Sound.succeed {keeping : ResetKeeping} (sound : keeping.Sound) {call : SyncCall} {stage : SyncStage}
    (holder : keeping.holder = some (call, stage)) (marker : Bool) (outstanding : List MarkerWrite)
    (fewer : ∀ write ∈ outstanding, write ∈ keeping.outstanding)
    (kept : keeping.Promised → marker = true ∧ ∀ write ∈ outstanding, write.owed = true)
    (promise : ∀ ticket ∈ call.ticket, keeping.record.settled < ticket →
      marker = true ∧ ∀ write ∈ outstanding, write.owed = true) :
    Sound { keeping.succeed call with
      marker
      outstanding } :=
  { sound.unlock with
    promised := by
      intro ticket inside
      rcases List.mem_append.mp inside with new | old
      · exact sound.holding call stage holder ticket (Option.mem_toList.mp new)
      · exact sound.promised ticket old
    loaded := fun call loaded held => by cases held
    writing := fun call write held => by cases held
    decided := fun call upTo held => by cases held
    recovered := sound.recovered
    clears := fun upTo inside => sound.clears upTo (fewer _ inside)
    kept := by
      rintro (⟨ticket, inside, unpaid⟩ | inherited)
      · rcases List.mem_append.mp inside with new | old
        · have isTicket := Option.mem_toList.mp new
          have positive := (sound.numbered ticket (sound.holding call stage holder ticket isTicket)).1
          exact promise ticket isTicket (sound.settled_of_paid unpaid positive)
        · exact kept (.inl ⟨ticket, old, unpaid⟩)
      · exact kept (.inr inherited) }

/-- A write is submitted: of a clear, everything its decision saw is settled. -/
theorem Sound.submit {keeping : ResetKeeping} (sound : keeping.Sound) {call : SyncCall} {loaded : Nat}
    (holder : keeping.holder = some (call, .loaded loaded)) (write : MarkerWrite)
    (clears : ∀ upTo, write = .clear upTo → upTo ≤ keeping.record.settled)
    (clearing : write.owed = false → ∀ ticket ∈ call.ticket, ticket ≤ keeping.record.settled)
    (unpromised : ¬ keeping.Promised) :
    Sound { keeping with
      holder := some (call, .writing write)
      outstanding := keeping.outstanding ++ [write] } :=
  { sound with
    holding := by
      intro other stage held
      obtain ⟨rfl, _⟩ := Prod.mk.inj (Option.some.inj held)
      exact sound.holding call _ holder
    loaded := fun other loaded held => by cases held
    writing := by
      intro other submitted held isClear
      obtain ⟨rfl, isWriting⟩ := Prod.mk.inj (Option.some.inj held)
      obtain rfl := SyncStage.writing.inj isWriting
      exact ⟨clearing isClear, unpromised⟩
    decided := by
      intro other upTo held
      obtain ⟨_, isWriting⟩ := Prod.mk.inj (Option.some.inj held)
      exact clears upTo (SyncStage.writing.inj isWriting)
    began := by
      intro unattended none
      have free := (sound.began unattended none).2
      rw [holder] at free
      cases free
    clears := by
      intro upTo inside
      rcases List.mem_append.mp inside with old | new
      · exact sound.clears upTo old
      · exact clears upTo (List.mem_singleton.mp new).symm
    kept := fun promised => absurd promised unpromised }

/-- The first outstanding write takes effect, or never will. -/
theorem Sound.settle {keeping : ResetKeeping} (sound : keeping.Sound) {write : MarkerWrite} {rest : List MarkerWrite}
    (outstanding : keeping.outstanding = write :: rest) (marker : Bool)
    (effect : marker = keeping.marker ∨ marker = write.owed) :
    Sound { keeping with
      marker
      outstanding := rest } := by
  have older {other : MarkerWrite} (inside : other ∈ rest) : other ∈ keeping.outstanding := by
    rw [outstanding]
    exact List.mem_cons_of_mem _ inside
  exact { sound with
    clears := fun upTo inside => sound.clears upTo (older inside)
    kept := by
      intro promised
      obtain ⟨isSet, sets⟩ := sound.kept promised
      refine ⟨?_, fun other inside => sets other (older inside)⟩
      rcases effect with same | landed
      · exact same.trans isSet
      · rw [landed]
        exact sets write (outstanding ▸ List.mem_cons_self) }

/-- Another process: the record is gone, and a promise is inherited. -/
theorem Sound.restart {keeping : ResetKeeping} (sound : keeping.Sound) :
    Sound { start keeping.marker with
      outstanding := keeping.outstanding.map restarted
      inherited := Decidable.decide keeping.Promised } :=
  { start_sound keeping.marker with
    loaded := fun call loaded held => by cases held
    writing := fun call write held => by cases held
    decided := fun call upTo held => by cases held
    recovered := fun _ _ impossible => by cases impossible
    clears := by
      intro upTo inside
      obtain ⟨write, _, same⟩ := List.mem_map.mp inside
      cases write with
      | set => cases same
      | clear old =>
          obtain rfl := MarkerWrite.clear.inj same
          exact Nat.le_refl _
    kept := by
      rintro (⟨ticket, inside, _⟩ | ⟨inherited, _⟩)
      · cases inside
      · obtain ⟨isSet, sets⟩ := sound.kept (of_decide_eq_true inherited)
        refine ⟨isSet, ?_⟩
        intro write inside
        obtain ⟨old, earlier, rfl⟩ := List.mem_map.mp inside
        have set := sets old earlier
        cases old with
        | set => rfl
        | clear upTo => cases set }

/-! ## The condition -/

/-- An `owe_durably` that is about to decide finds the marker set only where no clear can still
land. -/
def FindsItSet (keeping : ResetKeeping) : Prop :=
  match keeping.holder with
  | some (call, .loaded loaded) => call.ticket.isSome = true → keeping.record.isOwedAt loaded = true →
      keeping.marker = true → ∀ write ∈ keeping.outstanding, write.owed = true
  | _ => True

/-- The numbers do not run out, and no `owe_durably` trusts a marker that is about to be cleared. -/
def InOrder (keeping : ResetKeeping) (action : KeepingAction) : Prop :=
  keeping.record.recorded < u64Max ∧ (action = .decide → keeping.FindsItSet)

instance (keeping : ResetKeeping) : Decidable keeping.FindsItSet := by
  unfold FindsItSet
  split <;> infer_instance

instance (keeping : ResetKeeping) (action : KeepingAction) : Decidable (keeping.InOrder action) :=
  inferInstanceAs (Decidable (_ ∧ _))

theorem Sound.decide {keeping after : ResetKeeping} (sound : keeping.Sound) (finds : keeping.FindsItSet)
    (taken : keeping.step .decide = some after) : after.Sound := by
  simp only [step] at taken
  split at taken
  · rename_i call loaded holder
    obtain ⟨recorded, own, promised, inherits⟩ := sound.loaded call loaded holder
    have owed := sound.owed_of_promised promised inherits
    split at taken
    · rename_i same
      obtain rfl := Option.some.inj taken
      refine sound.succeed holder _ _ (fun _ inside => inside) sound.kept ?_
      intro ticket isTicket unsettled
      -- the promise: the marker is set, and the condition keeps it so
      have desired : keeping.record.isOwedAt loaded = true :=
        decide_eq_true (Nat.lt_of_lt_of_le unsettled (own ticket isTicket))
      rw [desired] at same
      unfold FindsItSet at finds
      rw [holder] at finds
      exact ⟨same, finds (Option.isSome_of_mem isTicket) desired same⟩
    · rename_i differs
      obtain rfl := Option.some.inj taken
      cases desired : keeping.record.isOwedAt loaded with
      | true =>
          -- the marker is not set, so nothing is promised
          rw [desired] at differs
          refine sound.submit holder .set (fun _ impossible => by cases impossible)
            (fun impossible => by cases impossible) ?_
          exact fun promised => differs (sound.kept promised).1
      | false =>
          have settled : loaded ≤ keeping.record.settled := Nat.le_of_not_lt (of_decide_eq_false desired)
          refine sound.submit holder (.clear loaded) ?_ ?_ ?_
          · intro upTo same
            exact MarkerWrite.clear.inj same ▸ settled
          · exact fun _ ticket isTicket => Nat.le_trans (own ticket isTicket) settled
          · exact fun promised => Nat.not_lt.mpr settled (owed promised)
  · cases taken

/-- The store answers the write of the holder. -/
theorem Sound.answer {keeping after : ResetKeeping} (sound : keeping.Sound) {ok : Bool}
    (taken : keeping.step (.answer ok) = some after) : after.Sound := by
  simp only [step] at taken
  split at taken
  · rename_i call write holder
    split at taken
    · obtain rfl := Option.some.inj taken
      refine sound.succeed holder _ _ (fun _ inside => by cases inside) ?_ ?_
      · intro promised
        refine ⟨?_, fun _ inside => by cases inside⟩
        by_contra isClear
        exact (sound.writing call write holder (Bool.eq_false_iff.mpr isClear)).2 promised
      · intro ticket isTicket unsettled
        refine ⟨?_, fun _ inside => by cases inside⟩
        by_contra isClear
        have settled := (sound.writing call write holder (Bool.eq_false_iff.mpr isClear)).1 ticket isTicket
        exact absurd unsettled (Nat.not_lt.mpr settled)
    · obtain rfl := Option.some.inj taken
      exact { sound with
        holding := by
          intro other stage held
          obtain ⟨rfl, _⟩ := Prod.mk.inj (Option.some.inj held)
          exact sound.holding call _ holder
        loaded := fun other loaded held => by cases held
        writing := fun other submitted held => by cases held
        decided := fun other upTo held => by cases held
        began := by
          intro unattended none
          have free := (sound.began unattended none).2
          rw [holder] at free
          cases free }
  · cases taken

/-- A call takes the lock, and loads what is recorded. -/
theorem Sound.lock {keeping after : ResetKeeping} (sound : keeping.Sound) {i : Nat}
    (taken : keeping.step (.lock i) = some after) : after.Sound := by
  simp only [step] at taken
  split at taken
  · rename_i call free waits
    obtain rfl := Option.some.inj taken
    have inside : call ∈ keeping.waiting := List.mem_of_getElem? waits
    exact { sound with
      waiting := fun other waiting => sound.waiting other (List.mem_of_mem_eraseIdx waiting)
      holding := by
        intro other stage held
        obtain ⟨rfl, _⟩ := Prod.mk.inj (Option.some.inj held)
        exact sound.waiting call inside
      loaded := fun other loaded held => by cases held
      writing := fun other submitted held => by cases held
      decided := fun other upTo held => by cases held
      began := by
        intro unattended none
        have isEmpty := (sound.began unattended none).1
        rw [isEmpty] at inside
        cases inside }
  · cases taken

theorem Sound.load {keeping after : ResetKeeping} (sound : keeping.Sound)
    (taken : keeping.step .load = some after) : after.Sound := by
  simp only [step] at taken
  split at taken
  · rename_i call holder
    obtain rfl := Option.some.inj taken
    have began : keeping.attended = false → 0 < keeping.record.recorded := by
      intro unattended
      refine Nat.pos_of_ne_zero ?_
      intro none
      have free := (sound.began unattended none).2
      rw [holder] at free
      cases free
    exact { sound with
      holding := by
        intro other stage held
        obtain ⟨rfl, _⟩ := Prod.mk.inj (Option.some.inj held)
        exact sound.holding call _ holder
      loaded := by
        intro other loaded held
        obtain ⟨rfl, isLoaded⟩ := Prod.mk.inj (Option.some.inj held)
        obtain rfl := SyncStage.loaded.inj isLoaded
        refine ⟨Nat.le_refl _, ?_, ?_, ?_⟩
        · exact fun ticket isTicket => (sound.numbered ticket (sound.holding call _ holder ticket isTicket)).2
        · exact fun ticket inside => (sound.numbered ticket (sound.promised ticket inside)).2
        · intro inherited none
          cases attended : keeping.attended with
          | false => exact began attended
          | true => exact sound.recovered inherited none attended
      writing := fun other submitted held => by cases held
      decided := fun other upTo held => by cases held
      began := fun unattended none => absurd none (Nat.ne_of_gt (began unattended)) }
  · cases taken

/-- `reset_is_owed` records what an earlier process owed, unless something is owed already. -/
theorem Sound.recover {keeping after : ResetKeeping} (sound : keeping.Sound)
    (room : keeping.record.recorded < u64Max) {i : Nat} (taken : keeping.step (.recover i) = some after) :
    after.Sound := by
  simp only [step] at taken
  split at taken
  · rename_i loaded looked
    have isLoaded := sound.recovering loaded (List.mem_of_getElem? looked)
    have fewer (loaded : Nat) (inside : some loaded ∈ keeping.recovering.eraseIdx i) :
        some loaded ∈ keeping.recovering := List.mem_of_mem_eraseIdx inside
    split at taken
    · rename_i owed
      obtain rfl := Option.some.inj taken
      refine sound.attended _ fewer ?_
      intro _ _
      have below : keeping.record.settled < loaded := of_decide_eq_true owed
      exact Nat.lt_of_le_of_lt (Nat.zero_le _) (Nat.lt_of_lt_of_le below isLoaded)
    · obtain rfl := Option.some.inj taken
      -- recording first and attending then leaves the same state
      have recorded := sound.owe room
      rw [owe_eq room] at recorded
      have both := recorded.attended _ fewer (fun _ _ => Nat.succ_pos _)
      have stillRoom : ({ keeping with
          recovering := keeping.recovering.eraseIdx i
          attended := true } : ResetKeeping).record.recorded < u64Max := room
      rw [owe_eq stillRoom]
      exact both
  · cases taken

/-- Every step in order keeps what holds of the record and the marker. -/
theorem Sound.step {keeping after : ResetKeeping} (sound : keeping.Sound) {action : KeepingAction}
    (inOrder : keeping.InOrder action) (taken : keeping.step action = some after) : after.Sound := by
  obtain ⟨room, finds⟩ := inOrder
  cases action with
  | owe =>
      obtain rfl := Option.some.inj taken
      exact sound.owe room
  | oweDurably =>
      simp only [ResetKeeping.step, owe_eq room] at taken
      obtain rfl := Option.some.inj taken
      have recorded := sound.owe room
      rw [owe_eq room] at recorded
      refine recorded.join _ ?_ (.inr (Nat.succ_pos _))
      intro ticket isTicket
      obtain rfl := Option.some.inj isTicket
      exact List.mem_cons_self
  | pay ticket =>
      simp only [ResetKeeping.step] at taken
      split at taken
      · rename_i issued
        obtain rfl := Option.some.inj taken
        exact sound.pay issued
      · cases taken
  | sync =>
      simp only [ResetKeeping.step] at taken
      split at taken
      · rename_i may
        obtain rfl := Option.some.inj taken
        exact sound.join _ (fun ticket isTicket => by cases isTicket) may
      · cases taken
  | attend =>
      simp only [ResetKeeping.step] at taken
      split at taken
      · obtain rfl := Option.some.inj taken
        exact { sound with
          recovering := by
            intro loaded inside
            rcases List.mem_append.mp inside with old | new
            · exact sound.recovering loaded old
            · cases List.mem_singleton.mp new }
      · rename_i unset
        obtain rfl := Option.some.inj taken
        refine sound.attended _ (fun _ inside => inside) ?_
        intro inherited none
        exact absurd (sound.kept (.inr ⟨inherited, none⟩)).1 unset
  | loadRecovering i =>
      simp only [ResetKeeping.step] at taken
      split at taken
      · obtain rfl := Option.some.inj taken
        exact { sound with
          recovering := by
            intro loaded inside
            rcases List.mem_or_eq_of_mem_set inside with old | new
            · exact sound.recovering loaded old
            · obtain rfl := Option.some.inj new
              exact Nat.le_refl _ }
      · cases taken
  | recover i => exact sound.recover room taken
  | lock i => exact sound.lock taken
  | load => exact sound.load taken
  | decide => exact sound.decide (finds rfl) taken
  | answer ok => exact sound.answer taken
  | conclude =>
      simp only [ResetKeeping.step] at taken
      split at taken
      · split at taken
        · obtain rfl := Option.some.inj taken
          exact sound.unlock
        · obtain rfl := Option.some.inj taken
          exact sound.unlock.owe room
      · cases taken
  | drop i =>
      simp only [ResetKeeping.step] at taken
      split at taken
      · obtain rfl := Option.some.inj taken
        exact { sound with
          waiting := fun call inside => sound.waiting call (List.mem_of_mem_eraseIdx inside)
          began := by
            intro unattended none
            obtain ⟨isEmpty, free⟩ := sound.began unattended none
            refine ⟨?_, free⟩
            show keeping.waiting.eraseIdx i = []
            rw [isEmpty]
            rfl }
      · cases taken
  | dropHolder =>
      simp only [ResetKeeping.step] at taken
      split at taken
      · obtain rfl := Option.some.inj taken
        exact sound.unlock
      · cases taken
  | land =>
      simp only [ResetKeeping.step] at taken
      split at taken
      · rename_i outstanding
        obtain rfl := Option.some.inj taken
        exact sound.settle outstanding _ (.inr rfl)
      · cases taken
  | lose =>
      simp only [ResetKeeping.step] at taken
      split at taken
      · rename_i outstanding
        obtain rfl := Option.some.inj taken
        exact sound.settle outstanding _ (.inl rfl)
      · cases taken
  | restart =>
      obtain rfl := Option.some.inj taken
      exact sound.restart

/-! ## The guarantee -/

/-- A clear that may still take effect, decided when `upTo` was the last obligation recorded. -/
def Clearing (keeping : ResetKeeping) (upTo : Nat) : Prop :=
  .clear upTo ∈ keeping.outstanding ∨ ∃ call, keeping.holder = some (call, .writing (.clear upTo))

/-- What the owed-reset record promises of a state it is in. -/
structure Kept (keeping : ResetKeeping) : Prop where
  /-- While a reset whose `owe_durably` returned is unpaid, the marker is set. -/
  promised : keeping.Promised → keeping.marker = true
  /-- Only a clear takes the marker away, and all it saw recorded is settled. -/
  cleared : ∀ action after, keeping.step action = some after → keeping.marker = true → after.marker = false →
    ∃ upTo, keeping.Clearing upTo ∧ upTo ≤ keeping.record.settled
  /-- Paying a ticket settles nothing recorded after it. -/
  later : ∀ later ticket earlier after, keeping.issued = later ++ ticket :: earlier →
    keeping.step (.pay ticket) = some after →
    ∀ obligation ∈ later, keeping.record.settled < obligation → after.record.settled < obligation

theorem owe_marker (keeping : ResetKeeping) : keeping.owe.2.marker = keeping.marker := rfl

/-- The marker goes when a clear takes effect or is answered. -/
theorem clearing_of_step {keeping after : ResetKeeping} {action : KeepingAction}
    (taken : keeping.step action = some after) (was : keeping.marker = true) (is : after.marker = false) :
    ∃ upTo, keeping.Clearing upTo := by
  have kept (same : after.marker = keeping.marker) : ∃ upTo, keeping.Clearing upTo := by
    rw [same, was] at is
    cases is
  cases action with
  | answer ok =>
      simp only [step] at taken
      split at taken
      · rename_i call write holder
        split at taken
        · obtain rfl := Option.some.inj taken
          cases write with
          | set => cases is
          | clear upTo => exact ⟨upTo, .inr ⟨call, holder⟩⟩
        · obtain rfl := Option.some.inj taken
          exact kept rfl
      · cases taken
  | land =>
      simp only [step] at taken
      split at taken
      · rename_i write rest outstanding
        obtain rfl := Option.some.inj taken
        cases write with
        | set => cases is
        | clear upTo => exact ⟨upTo, .inl (outstanding ▸ List.mem_cons_self)⟩
      · cases taken
  | owe | oweDurably | restart =>
      obtain rfl := Option.some.inj taken
      exact kept rfl
  | pay | sync | attend | loadRecovering | recover | lock | load | decide | conclude | drop | dropHolder | lose =>
      simp only [step] at taken
      refine kept ?_
      repeat' split at taken
      all_goals first
        | exact (Option.some.inj taken) ▸ rfl
        | cases taken

theorem Sound.keeps {keeping : ResetKeeping} (sound : keeping.Sound) : keeping.Kept where
  promised promised := (sound.kept promised).1
  cleared action after taken was is := by
    obtain ⟨upTo, clearing⟩ := clearing_of_step taken was is
    refine ⟨upTo, clearing, ?_⟩
    rcases clearing with outstanding | ⟨call, holder⟩
    · exact sound.clears upTo outstanding
    · exact sound.decided call upTo holder
  later later ticket earlier after split taken obligation inside unsettled := by
    have issued : ticket ∈ keeping.issued := by simp [split]
    simp only [ResetKeeping.step, if_pos issued] at taken
    obtain rfl := Option.some.inj taken
    have order := sound.issued
    rw [split] at order
    have above : ticket < obligation :=
      (List.pairwise_append.mp order).2.2 obligation inside ticket List.mem_cons_self
    exact Nat.max_lt.mpr ⟨unsettled, above⟩

/-- A reset is promised and paid; the clear overruns its timeout and never lands, and the next
reset is promised again. -/
def lostClear : List KeepingAction :=
  [.attend, .oweDurably, .lock 0, .load, .decide, .answer true, .pay 1, .sync, .lock 0, .load, .decide, .answer false,
    .conclude, .lose, .oweDurably, .lock 0, .load, .decide, .restart]

/-- The clear overruns its timeout, the next `owe_durably` finds the marker still set and writes
nothing, and the clear lands after it returned. -/
def lateClear : List KeepingAction :=
  [.attend, .oweDurably, .lock 0, .load, .decide, .answer true, .pay 1, .sync, .lock 0, .load, .decide, .answer false,
    .conclude, .oweDurably, .lock 0, .load, .decide, .land]

end ResetKeeping

end IronFix.Engine
