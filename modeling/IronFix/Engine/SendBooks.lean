import IronFix.Engine.SendWire
import Mathlib.Data.List.Perm.Basic

/-!
# Every receipt is somewhere once

A tracked send is unsent, being filed, in the buffer or resolved, and never in
two of these; the tracked frames in the buffer are the last ones fed, in order.
-/

namespace IronFix.Engine

open Lib.Decimal

theorem count_eraseIdx {receipts : List Receipt} {i : Nat} {receipt : Receipt} (found : receipts[i]? = some receipt)
    (id : Nat) : (receipts.map Receipt.id).count id =
      ((receipts.eraseIdx i).map Receipt.id).count id + (if receipt.id = id then 1 else 0) := by
  obtain ⟨inside, rfl⟩ := List.getElem?_eq_some_iff.mp found
  have same := (List.getElem_cons_eraseIdx_perm inside).map Receipt.id
  rw [← same.count_eq, List.map_cons, List.count_cons]
  simp only [beq_iff_eq]

namespace SendSystem

def outcomeIds (system : SendSystem) : List Nat := system.outcomes.map Prod.fst

def unsentIds (system : SendSystem) : List Nat := system.unsent.map Receipt.id

def filingIds (system : SendSystem) : List Nat := (system.filing.bind Filing.receipt).toList.map Receipt.id

def pendingIds (system : SendSystem) : List Nat := system.writer.receipts.map fun pending => pending.receipt.id

/-- The tracked sends whose frames were fed, in order. -/
def fedIds (system : SendSystem) : List Nat := system.ends.map Prod.fst

structure Books (system : SendSystem) : Prop where
  ledger : ∀ id, system.outcomeIds.count id + system.unsentIds.count id + system.filingIds.count id +
    system.pendingIds.count id = if id < system.issued then 1 else 0
  inOrder : system.outcomeIds.filter (· ∈ system.fedIds) ++ system.pendingIds = system.fedIds
  pendings : ∀ pending ∈ system.writer.receipts, pending.receipt.stage = .writing pending.seq ∧
    ∃ place, (pending.receipt.id, place) ∈ system.ends ∧ ∀ n, pending.end = some n → n = place
  filing : ∀ filing receipt, system.filing = some filing → filing.receipt = some receipt →
    receipt.stage = .filing filing.seq
  queued : ∀ receipt ∈ system.unsent, receipt.stage = .queued
  attempted : ∀ id ∈ system.attempted, id < system.issued ∧ id ∉ system.unsentIds
  places : ∀ id place, (id, place) ∈ system.ends → place ≤ system.fed.length
  sent : ∀ id seq sendingTime filed, (id, .sent seq sendingTime filed) ∈ system.outcomes →
    ∃ place, (id, place) ∈ system.ends ∧ place ≤ system.stream.length
  notSent : ∀ id reason, (id, .notSent reason) ∈ system.outcomes → id ∉ system.fedIds ∧
    (id ∈ system.attempted → reason = .storeRefused true)

theorem new_books (settings : SendSettings) (nextSender : Nat) : (new settings nextSender).Books where
  ledger id := rfl
  inOrder := rfl
  pendings pending inside := by cases inside
  filing filing receipt files := by cases files
  queued receipt inside := by cases inside
  attempted id inside := by cases inside
  places id place inside := by cases inside
  sent id seq sendingTime filed inside := by cases inside
  notSent id reason inside := by cases inside

/-- Only what is resolved or in the buffer was fed. -/
theorem Books.not_fed {system : SendSystem} (books : system.Books) {id : Nat}
    (held : 0 < system.unsentIds.count id + system.filingIds.count id) : id ∉ system.fedIds := by
  intro fed
  have inside := fed
  rw [← books.inOrder] at inside
  have whole := books.ledger id
  rcases List.mem_append.mp inside with resolved | pending
  · have := List.count_pos_iff.mpr (List.mem_of_mem_filter resolved)
    split at whole <;> omega
  · have := List.count_pos_iff.mpr pending
    split at whole <;> omega

theorem Books.unresolved {system : SendSystem} (books : system.Books) {id : Nat}
    (held : 0 < system.unsentIds.count id + system.filingIds.count id + system.pendingIds.count id) :
    id ∉ system.outcomeIds := by
  intro resolved
  have := List.count_pos_iff.mpr resolved
  have whole := books.ledger id
  split at whole <;> omega

/-- A system with the same receipts, and at least the bytes it had. -/
theorem Books.same {system after : SendSystem} (books : system.Books) (outcomes : after.outcomes = system.outcomes)
    (unsent : after.unsent = system.unsent) (filing : after.filing = system.filing)
    (receipts : after.writer.receipts = system.writer.receipts) (issued : after.issued = system.issued)
    (ends : after.ends = system.ends) (attempted : after.attempted = system.attempted)
    (fed : system.fed.length ≤ after.fed.length) (stream : system.stream.length ≤ after.stream.length) :
    after.Books where
  ledger := by
    unfold outcomeIds unsentIds filingIds pendingIds
    rw [outcomes, unsent, filing, receipts, issued]
    exact books.ledger
  inOrder := by
    unfold outcomeIds pendingIds fedIds
    rw [outcomes, receipts, ends]
    exact books.inOrder
  pendings := by
    rw [receipts, ends]
    exact books.pendings
  filing := by
    rw [filing]
    exact books.filing
  queued := by
    rw [unsent]
    exact books.queued
  attempted := by
    unfold unsentIds
    rw [attempted, issued, unsent]
    exact books.attempted
  places := by
    rw [ends]
    exact fun id place inside => Nat.le_trans (books.places id place inside) fed
  sent := by
    rw [outcomes, ends]
    intro id seq sendingTime filed inside
    obtain ⟨place, isEnd, accepted⟩ := books.sent id seq sendingTime filed inside
    exact ⟨place, isEnd, Nat.le_trans accepted stream⟩
  notSent := by
    unfold fedIds
    rw [outcomes, ends, attempted]
    exact books.notSent

/-! ## Resolving -/

/-- The first receipts of the buffer are resolved. -/
theorem Books.resolvePending {system after : SendSystem} (books : system.Books) {resolved rest : List PendingReceipt}
    (split : system.writer.receipts = resolved ++ rest) (outcome : PendingReceipt → SendOutcome)
    (outcomes : after.outcomes = system.outcomes ++ resolved.map fun pending => (pending.receipt.id, outcome pending))
    (receipts : after.writer.receipts = rest) (unsent : after.unsent = system.unsent)
    (filing : after.filing = system.filing) (issued : after.issued = system.issued)
    (ends : after.ends = system.ends) (attempted : after.attempted = system.attempted) (fed : after.fed = system.fed)
    (stream : system.stream.length ≤ after.stream.length)
    (honest : ∀ pending ∈ resolved, (∃ seq reason, outcome pending = .unknown seq reason) ∨
      ∃ place, (pending.receipt.id, place) ∈ system.ends ∧ place ≤ after.stream.length ∧
        outcome pending = .sent pending.seq pending.sendingTime pending.filed) : after.Books := by
  have outcomeIds : after.outcomeIds = system.outcomeIds ++ resolved.map fun pending => pending.receipt.id := by
    unfold SendSystem.outcomeIds
    rw [outcomes, List.map_append, List.map_map]
    rfl
  have pendingIds : system.pendingIds = (resolved.map fun pending => pending.receipt.id) ++ after.pendingIds := by
    unfold SendSystem.pendingIds
    rw [split, receipts, List.map_append]
  have unsentIds : after.unsentIds = system.unsentIds := by
    unfold SendSystem.unsentIds
    rw [unsent]
  have fedIds : after.fedIds = system.fedIds := by
    unfold SendSystem.fedIds
    rw [ends]
  have older {pending : PendingReceipt} (inside : pending ∈ rest) : pending ∈ system.writer.receipts := by
    rw [split]
    exact List.mem_append_right _ inside
  refine ⟨?_, ?_, ?_, ?_, ?_, ?_, ?_, ?_, ?_⟩
  · intro id
    have whole := books.ledger id
    rw [pendingIds, List.count_append] at whole
    have filingIds : after.filingIds = system.filingIds := by
      unfold SendSystem.filingIds
      rw [filing]
    rw [outcomeIds, unsentIds, filingIds, issued, List.count_append]
    omega
  · have all : (resolved.map fun pending => pending.receipt.id).filter (· ∈ system.fedIds) =
        resolved.map fun pending => pending.receipt.id := by
      refine List.filter_eq_self.mpr ?_
      intro id inside
      obtain ⟨pending, here, rfl⟩ := List.mem_map.mp inside
      obtain ⟨_, place, isEnd, _⟩ := books.pendings pending (split ▸ List.mem_append_left _ here)
      exact decide_eq_true (List.mem_map.mpr ⟨_, isEnd, rfl⟩)
    rw [outcomeIds, fedIds, List.filter_append, all, List.append_assoc, ← pendingIds]
    exact books.inOrder
  · rw [receipts, ends]
    exact fun pending inside => books.pendings pending (older inside)
  · rw [filing]
    exact books.filing
  · rw [unsent]
    exact books.queued
  · rw [attempted, issued, unsentIds]
    exact books.attempted
  · rw [ends, fed]
    exact books.places
  · rw [outcomes, ends]
    intro id seq sendingTime filed inside
    rcases List.mem_append.mp inside with old | new
    · obtain ⟨place, isEnd, accepted⟩ := books.sent id seq sendingTime filed old
      exact ⟨place, isEnd, Nat.le_trans accepted stream⟩
    · obtain ⟨pending, here, same⟩ := List.mem_map.mp new
      obtain ⟨rfl, isSent⟩ := Prod.mk.inj same
      rcases honest pending here with ⟨_, _, isUnknown⟩ | ⟨place, isEnd, accepted, _⟩
      · rw [isUnknown] at isSent
        cases isSent
      · exact ⟨place, isEnd, accepted⟩
  · rw [outcomes, fedIds, attempted]
    intro id reason inside
    rcases List.mem_append.mp inside with old | new
    · exact books.notSent id reason old
    · obtain ⟨pending, here, same⟩ := List.mem_map.mp new
      obtain ⟨_, isNotSent⟩ := Prod.mk.inj same
      rcases honest pending here with ⟨_, _, isUnknown⟩ | ⟨_, _, _, isSent⟩
      · rw [isUnknown] at isNotSent
        cases isNotSent
      · rw [isSent] at isNotSent
        cases isNotSent

theorem Books.failReceipts {system : SendSystem} (books : system.Books) (reason : UnknownReason) :
    (system.failReceipts reason).Books :=
  books.resolvePending (List.append_nil _).symm (fun pending => .unknown pending.seq reason) rfl rfl rfl rfl rfl rfl
    rfl rfl (Nat.le_refl _) (fun pending _ => .inl ⟨pending.seq, reason, rfl⟩)

/-- With the buffer empty, every frame in it has been accepted. -/
theorem Books.resolveSent {system : SendSystem} (books : system.Books)
    (all : system.fed.length ≤ system.stream.length) : system.resolveSent.Books := by
  refine books.resolvePending (List.append_nil _).symm
    (fun pending => .sent pending.seq pending.sendingTime pending.filed) rfl rfl rfl rfl rfl rfl rfl rfl (Nat.le_refl _) ?_
  intro pending inside
  obtain ⟨_, place, isEnd, _⟩ := books.pendings pending inside
  exact .inr ⟨place, isEnd, Nat.le_trans (books.places _ place isEnd) all, rfl⟩

theorem wrote_receipts (moved : Nat) (writer : Writer) :
    writer.receipts = (writer.wrote moved).1 ++ (writer.wrote moved).2.receipts ∧
      ∀ pending ∈ (writer.wrote moved).1, ∃ n accepted, pending.end = some n ∧
        addBytes writer.acceptedBytes moved = some accepted ∧ n ≤ accepted := by
  unfold Writer.wrote Writer.resolveAccepted
  dsimp only
  split
  · exact ⟨rfl, fun _ inside => by cases inside⟩
  · rename_i accepted counted
    refine ⟨List.takeWhile_append_dropWhile.symm, ?_⟩
    intro pending inside
    have passed := List.all_eq_true.mp List.all_takeWhile pending inside
    unfold Writer.reached at passed
    obtain ⟨n, isEnd, below⟩ := (Option.any_eq_true _ _).mp passed
    exact ⟨n, accepted, isEnd, counted, of_decide_eq_true below⟩

theorem Books.accept {system : SendSystem} (books : system.Books) (wire : system.Wire) {moved : Nat}
    (room : moved ≤ system.buffer.length) : (system.accept moved).Books := by
  have accepted := (wire.accept room).acceptedCount
  unfold SendSystem.accept at accepted ⊢
  split
  · exact books
  · rename_i some
    rw [if_neg some] at accepted
    obtain ⟨split, reached⟩ := wrote_receipts moved system.writer
    refine books.resolvePending split (fun pending => .sent pending.seq pending.sendingTime pending.filed) rfl rfl rfl
      rfl rfl rfl rfl rfl ?_ ?_
    · show system.stream.length ≤ (system.stream ++ system.buffer.take moved).length
      rw [List.length_append]
      exact Nat.le_add_right _ _
    · intro pending inside
      obtain ⟨n, total, isEnd, counted, below⟩ := reached pending inside
      have inBuffer : pending ∈ system.writer.receipts := by
        rw [split]
        exact List.mem_append_left _ inside
      obtain ⟨_, place, isPlace, same⟩ := books.pendings pending inBuffer
      obtain rfl := same n isEnd
      refine .inr ⟨n, isPlace, ?_, rfl⟩
      have isTotal : total = (system.stream ++ system.buffer.take moved).length := by
        refine accepted total ?_
        rw [← counted]
        exact wrote_acceptedBytes moved system.writer
      exact isTotal ▸ below

/-- Receipts whose frames were not fed are resolved. -/
theorem Books.resolveHeld {system after : SendSystem} (books : system.Books) (resolved : List (Nat × SendOutcome))
    (moved : ∀ id, after.unsentIds.count id + after.filingIds.count id + (resolved.map Prod.fst).count id =
      system.unsentIds.count id + system.filingIds.count id)
    (outcomes : after.outcomes = system.outcomes ++ resolved)
    (receipts : after.writer.receipts = system.writer.receipts) (issued : after.issued = system.issued)
    (ends : after.ends = system.ends) (attempted : after.attempted = system.attempted) (fed : after.fed = system.fed)
    (stream : after.stream = system.stream) (unsent : ∀ receipt ∈ after.unsent, receipt ∈ system.unsent)
    (filing : after.filing = system.filing ∨ after.filing = none)
    (honest : ∀ id outcome, (id, outcome) ∈ resolved → (∃ seq reason, outcome = .unknown seq reason) ∨
      ∃ reason, outcome = .notSent reason ∧ (id ∈ system.attempted → reason = .storeRefused true)) : after.Books := by
  have outcomeIds : after.outcomeIds = system.outcomeIds ++ resolved.map Prod.fst := by
    unfold SendSystem.outcomeIds
    rw [outcomes, List.map_append]
  have pendingIds : after.pendingIds = system.pendingIds := by
    unfold SendSystem.pendingIds
    rw [receipts]
  have fedIds : after.fedIds = system.fedIds := by
    unfold SendSystem.fedIds
    rw [ends]
  have unfed {id : Nat} (inside : id ∈ resolved.map Prod.fst) : id ∉ system.fedIds := by
    refine books.not_fed ?_
    have := List.count_pos_iff.mpr inside
    rw [← moved id]
    omega
  refine ⟨?_, ?_, ?_, ?_, ?_, ?_, ?_, ?_, ?_⟩
  · intro id
    have whole := books.ledger id
    have same := moved id
    rw [outcomeIds, pendingIds, issued, List.count_append]
    omega
  · have none : (resolved.map Prod.fst).filter (· ∈ system.fedIds) = [] := by
      refine List.filter_eq_nil_iff.mpr ?_
      intro id inside isFed
      exact unfed inside (of_decide_eq_true isFed)
    rw [outcomeIds, fedIds, pendingIds, List.filter_append, none, List.append_nil]
    exact books.inOrder
  · rw [receipts, ends]
    exact books.pendings
  · intro filed receipt files isReceipt
    rcases filing with same | gone
    · exact books.filing filed receipt (same ▸ files) isReceipt
    · rw [gone] at files
      cases files
  · exact fun receipt inside => books.queued receipt (unsent receipt inside)
  · rw [attempted, issued]
    intro id inside
    obtain ⟨below, apart⟩ := books.attempted id inside
    refine ⟨below, ?_⟩
    intro still
    obtain ⟨receipt, here, rfl⟩ := List.mem_map.mp still
    exact apart (List.mem_map.mpr ⟨receipt, unsent receipt here, rfl⟩)
  · rw [ends, fed]
    exact books.places
  · rw [outcomes, ends, stream]
    intro id seq sendingTime filed inside
    rcases List.mem_append.mp inside with old | new
    · exact books.sent id seq sendingTime filed old
    · rcases honest _ _ new with ⟨_, _, isUnknown⟩ | ⟨_, isNotSent, _⟩
      · cases isUnknown
      · cases isNotSent
  · rw [outcomes, fedIds, attempted]
    intro id reason inside
    rcases List.mem_append.mp inside with old | new
    · exact books.notSent id reason old
    · rcases honest _ _ new with ⟨_, _, isUnknown⟩ | ⟨_, isNotSent, refused⟩
      · cases isUnknown
      · obtain rfl := SendOutcome.notSent.inj isNotSent
        exact ⟨unfed (List.mem_map.mpr ⟨_, new, rfl⟩), refused⟩

/-- An unsent message is refused before its filing is handed to a store. -/
theorem Books.refuse {system : SendSystem} (books : system.Books) {i : Nat} {receipt : Receipt}
    (found : system.unsent[i]? = some receipt) (reason : NotSentReason) :
    Books ({ system with unsent := system.unsent.eraseIdx i }.resolve [(receipt.id, .notSent reason)]) := by
  have inside : receipt ∈ system.unsent := List.mem_of_getElem? found
  refine books.resolveHeld [(receipt.id, .notSent reason)] ?_ rfl rfl rfl rfl rfl rfl rfl
    (fun _ here => List.mem_of_mem_eraseIdx here) (.inl rfl) ?_
  · intro id
    have erased := count_eraseIdx found id
    show ((system.unsent.eraseIdx i).map Receipt.id).count id + system.filingIds.count id + [receipt.id].count id =
      (system.unsent.map Receipt.id).count id + system.filingIds.count id
    rw [erased, List.count_singleton]
    simp only [beq_iff_eq]
    omega
  · intro id outcome here
    obtain ⟨rfl, rfl⟩ := Prod.mk.inj (List.mem_singleton.mp here)
    refine .inr ⟨reason, rfl, ?_⟩
    intro attempted
    exact absurd (List.mem_map.mpr ⟨receipt, inside, rfl⟩) (books.attempted _ attempted).2

/-- The frame being filed is stopped. -/
theorem Books.failFiling {system : SendSystem} (books : system.Books) {filing : Filing}
    (files : system.filing = some filing) (error : FrameError)
    (late : error ≠ .sequenceExhausted) : Books ({ system with filing := none }.failFrame filing.receipt error) := by
  refine books.resolveHeld (filing.receipt.toList.map fun receipt => (receipt.id, receipt.fail error)) ?_
    rfl rfl rfl rfl rfl rfl rfl (fun _ here => here) (.inr rfl) ?_
  · intro id
    show system.unsentIds.count id + [].count id + _ = _
    unfold filingIds
    rw [files, List.map_map]
    simp only [List.count_nil, Nat.add_zero]
    rfl
  · intro id outcome here
    obtain ⟨receipt, isReceipt, same⟩ := List.mem_map.mp here
    obtain ⟨rfl, rfl⟩ := Prod.mk.inj same
    have stage := books.filing filing receipt files (Option.mem_toList.mp isReceipt)
    unfold Receipt.fail
    rw [stage]
    cases error with
    | sequenceExhausted => exact absurd rfl late
    | store => exact .inr ⟨_, rfl, fun _ => rfl⟩
    | sequence detail => exact .inl ⟨filing.seq, .interrupted, rfl⟩
    | codec size maxSize => exact .inl ⟨filing.seq, .transport, rfl⟩

/-- The task is dropped, and every receipt left answers from what it knows. -/
theorem Books.abort {system after : SendSystem} (books : system.Books)
    (outcomes : after.outcomes = system.outcomes ++ system.dropped) (receipts : after.writer.receipts = [])
    (unsent : after.unsent = []) (filing : after.filing = none) (issued : after.issued = system.issued)
    (ends : after.ends = system.ends) (attempted : after.attempted = system.attempted) (fed : after.fed = system.fed)
    (stream : after.stream = system.stream) : after.Books := by
  let held := system.unsent ++ (system.filing.bind Filing.receipt).toList
  let middle : SendSystem := { system with
    outcomes := system.outcomes ++ held.map fun receipt => (receipt.id, receipt.drop)
    unsent := []
    filing := none }
  have first : middle.Books := by
    refine books.resolveHeld (held.map fun receipt => (receipt.id, receipt.drop)) ?_ rfl rfl rfl rfl rfl
      rfl rfl (fun _ here => by cases here) (.inr rfl) ?_
    · intro id
      have ids : (held.map fun receipt => (receipt.id, receipt.drop)).map Prod.fst =
          system.unsentIds ++ system.filingIds := by
        rw [List.map_map]
        exact List.map_append
      rw [ids, List.count_append]
      exact Nat.zero_add _
    · intro id outcome here
      obtain ⟨receipt, isHeld, same⟩ := List.mem_map.mp here
      obtain ⟨rfl, rfl⟩ := Prod.mk.inj same
      unfold Receipt.drop
      rcases List.mem_append.mp isHeld with queued | files
      · rw [books.queued receipt queued]
        refine .inr ⟨_, rfl, fun attempted => ?_⟩
        exact absurd (List.mem_map.mpr ⟨receipt, queued, rfl⟩) (books.attempted _ attempted).2
      · obtain ⟨filed, isFiling, isReceipt⟩ := Option.bind_eq_some_iff.mp (Option.mem_toList.mp files)
        rw [books.filing filed receipt isFiling isReceipt]
        exact .inl ⟨filed.seq, .interrupted, rfl⟩
  refine first.resolvePending (List.append_nil _).symm (fun pending => pending.receipt.drop) ?_ receipts unsent filing
    issued ends attempted fed (Nat.le_of_eq (congrArg List.length stream).symm) ?_
  · rw [outcomes]
    show _ = system.outcomes ++ held.map _ ++ _
    rw [List.append_assoc]
    unfold dropped
    rw [List.map_append, List.map_map]
    rfl
  · intro pending inside
    obtain ⟨stage, _⟩ := books.pendings pending inside
    refine .inl ⟨pending.seq, .interrupted, ?_⟩
    unfold Receipt.drop
    rw [stage]
    rfl

/-! ## Moving on -/

theorem Books.track {system : SendSystem} (books : system.Books) :
    Books { system with
      unsent := system.unsent ++ [⟨system.issued, .queued⟩]
      issued := system.issued + 1 } where
  ledger id := by
    have whole := books.ledger id
    show system.outcomeIds.count id + ((system.unsent ++ [(⟨system.issued, .queued⟩ : Receipt)]).map Receipt.id).count id +
      system.filingIds.count id + system.pendingIds.count id = _
    rw [List.map_append, List.count_append, List.map_singleton, List.count_singleton]
    simp only [beq_iff_eq]
    unfold unsentIds at whole
    split at whole <;> split <;> split <;> omega
  inOrder := books.inOrder
  pendings := books.pendings
  filing := books.filing
  queued receipt inside := by
    rcases List.mem_append.mp inside with old | new
    · exact books.queued receipt old
    · rw [List.mem_singleton.mp new]
  attempted id inside := by
    obtain ⟨below, apart⟩ := books.attempted id inside
    refine ⟨Nat.lt_succ_of_lt below, ?_⟩
    intro unsent
    obtain ⟨receipt, here, rfl⟩ := List.mem_map.mp unsent
    rcases List.mem_append.mp here with old | new
    · exact apart (List.mem_map.mpr ⟨receipt, old, rfl⟩)
    · rw [List.mem_singleton.mp new] at below
      exact Nat.lt_irrefl _ below
  places := books.places
  sent := books.sent
  notSent := books.notSent

/-- A message is numbered, and its filing handed to the store. -/
theorem Books.number {system : SendSystem} (books : system.Books) (free : system.filing = none) {i : Nat}
    {receipt : Receipt} (found : system.unsent[i]? = some receipt) (filing : Filing)
    (isReceipt : filing.receipt = some (receipt.filing filing.seq)) (attempted : List Nat)
    (known : ∀ id ∈ attempted, id = receipt.id ∨ id ∈ system.attempted) :
    Books { system with
      unsent := system.unsent.eraseIdx i
      filing := some filing
      attempted } := by
  have isUnsent : receipt.id ∈ system.unsentIds :=
    List.mem_map.mpr ⟨receipt, List.mem_of_getElem? found, rfl⟩
  have held := List.count_pos_iff.mpr isUnsent
  have whole := books.ledger
  have none : system.filingIds = [] := by
    unfold filingIds
    rw [free]
    rfl
  have erased (id : Nat) : system.unsentIds.count id =
      ((system.unsent.eraseIdx i).map Receipt.id).count id + (if receipt.id = id then 1 else 0) :=
    count_eraseIdx found id
  refine ⟨?_, books.inOrder, books.pendings, ?_, ?_, ?_, books.places, books.sent, ?_⟩
  · intro id
    have now := whole id
    have ids : ((some filing).bind Filing.receipt).toList.map Receipt.id = [receipt.id] := by
      show filing.receipt.toList.map Receipt.id = _
      rw [isReceipt]
      rfl
    rw [none, erased id, List.count_nil] at now
    show system.outcomeIds.count id + ((system.unsent.eraseIdx i).map Receipt.id).count id +
      (((some filing).bind Filing.receipt).toList.map Receipt.id).count id + system.pendingIds.count id = _
    rw [ids, List.count_singleton]
    simp only [beq_iff_eq]
    omega
  · intro filed other files isOther
    obtain rfl := Option.some.inj files
    rw [isReceipt] at isOther
    obtain rfl := Option.some.inj isOther
    rfl
  · exact fun other here => books.queued other (List.mem_of_mem_eraseIdx here)
  · intro id inside
    rcases known id inside with rfl | old
    · have now := whole receipt.id
      have rest := erased receipt.id
      rw [if_pos rfl] at rest
      refine ⟨?_, ?_⟩
      · by_contra beyond
        rw [if_neg beyond] at now
        omega
      · intro still
        have more : 0 < ((system.unsent.eraseIdx i).map Receipt.id).count receipt.id :=
          List.count_pos_iff.mpr still
        split at now <;> omega
    · obtain ⟨below, apart⟩ := books.attempted id old
      refine ⟨below, ?_⟩
      intro still
      obtain ⟨other, here, rfl⟩ := List.mem_map.mp still
      exact apart (List.mem_map.mpr ⟨other, List.mem_of_mem_eraseIdx here, rfl⟩)
  · intro id reason inside
    obtain ⟨unfed, refused⟩ := books.notSent id reason inside
    refine ⟨unfed, ?_⟩
    intro isAttempted
    rcases known id isAttempted with rfl | old
    · have resolved : receipt.id ∈ system.outcomeIds := List.mem_map.mpr ⟨_, inside, rfl⟩
      exact absurd resolved (books.unresolved (by omega))
    · exact refused old

/-- The frame filed is fed, and its receipt waits for the frame's last byte. -/
theorem Books.queue {system after : SendSystem} (books : system.Books) {filing : Filing} {receipt : Receipt}
    (files : system.filing = some filing) (isReceipt : filing.receipt = some receipt) (pending : PendingReceipt)
    (itsReceipt : pending.receipt = receipt.writing pending.seq)
    (itsEnd : ∀ n, pending.end = some n → n = after.fed.length)
    (receipts : after.writer.receipts = system.writer.receipts ++ [pending])
    (ends : after.ends = system.ends ++ [(receipt.id, after.fed.length)])
    (outcomes : after.outcomes = system.outcomes) (unsent : after.unsent = system.unsent)
    (free : after.filing = none) (issued : after.issued = system.issued)
    (attempted : after.attempted = system.attempted) (fed : system.fed.length ≤ after.fed.length)
    (stream : after.stream = system.stream) : after.Books := by
  have filingIds : system.filingIds = [receipt.id] := by
    unfold SendSystem.filingIds
    rw [files]
    show filing.receipt.toList.map Receipt.id = _
    rw [isReceipt]
    rfl
  have pendingIds : after.pendingIds = system.pendingIds ++ [receipt.id] := by
    unfold SendSystem.pendingIds
    rw [receipts, List.map_append, List.map_singleton, itsReceipt]
    rfl
  have fedIds : after.fedIds = system.fedIds ++ [receipt.id] := by
    unfold SendSystem.fedIds
    rw [ends, List.map_append]
    rfl
  have outcomeIds : after.outcomeIds = system.outcomeIds := by
    unfold SendSystem.outcomeIds
    rw [outcomes]
  have unresolved : receipt.id ∉ system.outcomeIds := by
    refine books.unresolved ?_
    rw [filingIds, List.count_singleton_self]
    omega
  refine ⟨?_, ?_, ?_, ?_, ?_, ?_, ?_, ?_, ?_⟩
  · intro id
    have whole := books.ledger id
    have none : after.filingIds = [] := by
      unfold SendSystem.filingIds
      rw [free]
      rfl
    have unsentIds : after.unsentIds = system.unsentIds := by
      unfold SendSystem.unsentIds
      rw [unsent]
    rw [filingIds] at whole
    rw [outcomeIds, unsentIds, none, pendingIds, issued, List.count_append, List.count_nil]
    omega
  · have same : system.outcomeIds.filter (· ∈ system.fedIds ++ [receipt.id]) =
        system.outcomeIds.filter (· ∈ system.fedIds) := by
      refine List.filter_congr ?_
      intro id inside
      have differs : id ≠ receipt.id := fun is => unresolved (is ▸ inside)
      simp [differs]
    rw [outcomeIds, fedIds, pendingIds, same, ← List.append_assoc, books.inOrder]
  · rw [receipts, ends]
    intro other inside
    rcases List.mem_append.mp inside with old | new
    · obtain ⟨stage, place, isEnd, counted⟩ := books.pendings other old
      exact ⟨stage, place, List.mem_append_left _ isEnd, counted⟩
    · obtain rfl := List.mem_singleton.mp new
      rw [itsReceipt]
      exact ⟨rfl, after.fed.length, List.mem_append_right _ (List.mem_singleton.mpr rfl), itsEnd⟩
  · intro filed other isFiled
    rw [free] at isFiled
    cases isFiled
  · rw [unsent]
    exact books.queued
  · unfold unsentIds
    rw [attempted, issued, unsent]
    exact books.attempted
  · rw [ends]
    intro id place inside
    rcases List.mem_append.mp inside with old | new
    · exact Nat.le_trans (books.places id place old) fed
    · obtain ⟨_, rfl⟩ := Prod.mk.inj (List.mem_singleton.mp new)
      exact Nat.le_refl _
  · rw [outcomes, ends, stream]
    intro id seq sendingTime filed inside
    obtain ⟨place, isEnd, accepted⟩ := books.sent id seq sendingTime filed inside
    exact ⟨place, List.mem_append_left _ isEnd, accepted⟩
  · rw [outcomes, fedIds, attempted]
    intro id reason inside
    obtain ⟨unfed, refused⟩ := books.notSent id reason inside
    refine ⟨?_, refused⟩
    intro isFed
    rcases List.mem_append.mp isFed with old | new
    · exact unfed old
    · have resolved : id ∈ system.outcomeIds := List.mem_map.mpr ⟨_, inside, rfl⟩
      exact unresolved (List.mem_singleton.mp new ▸ resolved)

end SendSystem

end IronFix.Engine
