import IronFix.Engine.Registry

/-!
# The route table

What keeps the routes of a table apart, and what each operation on the table
does to its routes: one is added, one changes in place, or one goes.
-/

namespace IronFix.Engine

open Lib.Bucketed Lib.Decimal

/-- Two sessions that may stand in one registry. -/
structure Apart (route other : Route) : Prop where
  exclusive : route.pattern.overlaps other.pattern = false
  sessions : route.acceptor.sessionId ≠ other.acceptor.sessionId
  stores : route.acceptor.store.isSome = true → route.acceptor.store ≠ other.acceptor.store
  arcs : route.arc ≠ other.arc

theorem Apart.symm {route other : Route} (apart : Apart route other) : Apart other route where
  exclusive := by
    rw [RoutePattern.overlaps_comm]
    exact apart.exclusive
  sessions := apart.sessions.symm
  stores isSome same := apart.stores (same ▸ isSome) same.symm
  arcs := apart.arcs.symm

instance : Std.Symm Apart := ⟨fun _ _ apart => apart.symm⟩

/-- The looked-up sessions among the routes. -/
def lookedUp (routes : List Route) : Nat := routes.countP fun route => route.state != .registered

/-- What holds of the routes of a table, in whatever order. -/
structure Coherent (fromLookup arcs : Nat) (routes : List Route) : Prop where
  apart : routes.Pairwise Apart
  patterns : ∀ route ∈ routes, route.pattern = .forSession route.acceptor.config
  usable : ∀ route ∈ routes, route.acceptor.preflight = .ok ()
  addresses : ∀ route ∈ routes, route.arc < arcs
  counted : fromLookup = lookedUp routes

theorem Coherent.perm {fromLookup arcs : Nat} {routes others : List Route} (coherent : Coherent fromLookup arcs routes)
    (same : routes.Perm others) : Coherent fromLookup arcs others where
  apart := coherent.apart.perm same fun apart => apart.symm
  patterns route inside := coherent.patterns route (same.mem_iff.mpr inside)
  usable route inside := coherent.usable route (same.mem_iff.mpr inside)
  addresses route inside := coherent.addresses route (same.mem_iff.mpr inside)
  counted := coherent.counted.trans (same.countP_eq _)

/-- A route changes, but not whose it is. -/
structure Same (route changed : Route) : Prop where
  pattern : changed.pattern = route.pattern
  arc : changed.arc = route.arc
  acceptor : changed.acceptor = route.acceptor
  state : (changed.state != .registered) = (route.state != .registered)

theorem Coherent.replace {fromLookup arcs : Nat} {route changed : Route} {others : List Route}
    (coherent : Coherent fromLookup arcs (route :: others)) (same : Same route changed) :
    Coherent fromLookup arcs (changed :: others) where
  apart := by
    obtain ⟨first, rest⟩ := List.pairwise_cons.mp coherent.apart
    refine List.pairwise_cons.mpr ⟨?_, rest⟩
    intro other inside
    have apart := first other inside
    refine ⟨?_, ?_, ?_, ?_⟩
    · rw [same.pattern]
      exact apart.exclusive
    · rw [same.acceptor]
      exact apart.sessions
    · rw [same.acceptor]
      exact apart.stores
    · rw [same.arc]
      exact apart.arcs
  patterns other inside := by
    rcases List.mem_cons.mp inside with rfl | inside
    · rw [same.pattern, same.acceptor]
      exact coherent.patterns route List.mem_cons_self
    · exact coherent.patterns other (List.mem_cons_of_mem _ inside)
  usable other inside := by
    rcases List.mem_cons.mp inside with rfl | inside
    · rw [same.acceptor]
      exact coherent.usable route List.mem_cons_self
    · exact coherent.usable other (List.mem_cons_of_mem _ inside)
  addresses other inside := by
    rcases List.mem_cons.mp inside with rfl | inside
    · rw [same.arc]
      exact coherent.addresses route List.mem_cons_self
    · exact coherent.addresses other (List.mem_cons_of_mem _ inside)
  counted := by
    refine coherent.counted.trans ?_
    unfold lookedUp
    rw [List.countP_cons, List.countP_cons, same.state]

theorem Coherent.widen {fromLookup arcs more : Nat} {routes : List Route} (coherent : Coherent fromLookup arcs routes)
    (grows : arcs ≤ more) : Coherent fromLookup more routes :=
  { coherent with addresses := fun route inside => Nat.lt_of_lt_of_le (coherent.addresses route inside) grows }

namespace RouteTable

theorem bucket_insert (key other : CompId × CompId) (items : List Route) (buckets : Buckets (CompId × CompId) Route) :
    bucket other (buckets.insert key items) = if other = key then items else bucket other buckets := by
  unfold bucket
  split
  · rename_i same
    rw [same, AList.lookup_insert]
    rfl
  · rename_i different
    rw [AList.lookup_insert_ne different]

theorem mem_routes {route : Route} {table : RouteTable} :
    route ∈ table.routes ↔ ∃ key, route ∈ bucket key table.buckets := by
  unfold routes
  rw [mem_all]
  constructor
  · rintro ⟨key, items, found, inside⟩
    exact ⟨key, bucket_eq found ▸ inside⟩
  · rintro ⟨key, inside⟩
    unfold bucket at inside
    cases found : table.buckets.lookup key with
    | none =>
        rw [found] at inside
        cases inside
    | some items =>
        rw [found] at inside
        exact ⟨key, items, found, inside⟩

/-- Each route is in the bucket of its pattern. -/
def Keyed (table : RouteTable) : Prop :=
  ∀ key route, route ∈ bucket key table.buckets → route.pattern.compIds = key

theorem Keyed.mem_bucket {table : RouteTable} (keyed : table.Keyed) {route : Route} (inside : route ∈ table.routes) :
    route ∈ bucket route.pattern.compIds table.buckets := by
  obtain ⟨key, here⟩ := mem_routes.mp inside
  rw [keyed key route here]
  exact here

theorem routes_update {key : CompId × CompId} {fits : Route → Bool} (change : Route → Route) {table : RouteTable}
    {route : Route} (found : (bucket key table.buckets).find? fits = some route) :
    ∃ others, table.routes.Perm (route :: others) ∧
      (table.update key fits change).routes.Perm (change route :: others) := by
  obtain ⟨before, after, split, updated⟩ := updateFirst_of_find change found
  have whole := all_perm key table.buckets
  refine ⟨before ++ after ++ all (table.buckets.erase key), ?_, ?_⟩
  · refine whole.trans ?_
    rw [split, List.append_assoc, List.append_assoc]
    exact List.perm_middle
  · show (all (table.buckets.insert key _)).Perm _
    rw [all_insert, updated, List.append_assoc, List.append_assoc]
    exact List.perm_middle

theorem Keyed.update {key : CompId × CompId} {fits : Route → Bool} {change : Route → Route} {table : RouteTable}
    (keyed : table.Keyed) {route : Route} (found : (bucket key table.buckets).find? fits = some route)
    (same : (change route).pattern = route.pattern) : (table.update key fits change).Keyed := by
  obtain ⟨before, after, split, updated⟩ := updateFirst_of_find change found
  intro other r inside
  unfold RouteTable.update at inside
  rw [bucket_insert] at inside
  split at inside
  · rename_i isKey
    subst isKey
    rw [updated] at inside
    rcases List.mem_append.mp inside with earlier | later
    · exact keyed other r (split ▸ List.mem_append_left _ earlier)
    · rcases List.mem_cons.mp later with rfl | later
      · rw [same]
        exact keyed other route (List.mem_of_find?_eq_some found)
      · exact keyed other r (split ▸ List.mem_append_right _ (List.mem_cons_of_mem _ later))
  · exact keyed other r inside

theorem routes_push (arc : Nat) (pattern : RoutePattern) (acceptor : Acceptor) (state : RouteState) (claims : Nat)
    (table : RouteTable) :
    (table.push arc pattern acceptor state claims).routes.Perm
      (⟨pattern, arc, acceptor, state, claims⟩ :: table.routes) := by
  show (all (table.buckets.insert pattern.compIds _)).Perm _
  rw [all_insert, List.append_assoc]
  refine List.perm_middle.trans (List.Perm.cons _ ?_)
  exact (all_perm pattern.compIds table.buckets).symm

theorem Keyed.push {table : RouteTable} (keyed : table.Keyed) (arc : Nat) (pattern : RoutePattern)
    (acceptor : Acceptor) (state : RouteState) (claims : Nat) :
    (table.push arc pattern acceptor state claims).Keyed := by
  intro other r inside
  unfold RouteTable.push at inside
  rw [bucket_insert] at inside
  split at inside
  · rename_i isKey
    subst isKey
    rcases List.mem_append.mp inside with old | new
    · exact keyed _ r old
    · rw [List.mem_singleton.mp new]
  · exact keyed other r inside

/-- An evicted session leaves, and the others stay. -/
theorem routes_evict {key : CompId × CompId} {table : RouteTable} {route : Route}
    (inside : route ∈ bucket key table.buckets) (apart : table.routes.Pairwise Apart) :
    ∃ others, table.routes.Perm (route :: others) ∧ (table.evict key route.arc).routes.Perm others := by
  obtain ⟨before, after, split⟩ := List.append_of_mem inside
  have whole := all_perm key table.buckets
  have bucketApart : (before ++ route :: after).Pairwise Apart := by
    have := apart.perm whole fun apart => apart.symm
    rw [split] at this
    exact (List.pairwise_append.mp this).1
  obtain ⟨_, tail, cross⟩ := List.pairwise_append.mp bucketApart
  have left : before.filter (fun other => other.arc != route.arc) = before := by
    refine List.filter_eq_self.mpr ?_
    intro other earlier
    exact bne_iff_ne.mpr (cross other earlier route List.mem_cons_self).arcs
  have right : after.filter (fun other => other.arc != route.arc) = after := by
    refine List.filter_eq_self.mpr ?_
    intro other later
    exact bne_iff_ne.mpr ((List.pairwise_cons.mp tail).1 other later).arcs.symm
  have rest : (bucket key table.buckets).filter (fun other => other.arc != route.arc) = before ++ after := by
    rw [split, List.filter_append, List.filter_cons_of_neg (by simp), left, right]
  refine ⟨before ++ after ++ all (table.buckets.erase key), ?_, ?_⟩
  · refine whole.trans ?_
    rw [split, List.append_assoc, List.append_assoc]
    exact List.perm_middle
  · unfold evict routes
    dsimp only
    rw [rest]
    split
    · rename_i isEmpty
      rw [List.isEmpty_iff.mp isEmpty, List.nil_append]
    · rw [all_insert]

theorem Keyed.evict {table : RouteTable} (keyed : table.Keyed) (key : CompId × CompId) (arc : Nat) :
    (table.evict key arc).Keyed := by
  intro other r inside
  unfold RouteTable.evict at inside
  dsimp only at inside
  split at inside
  · by_cases same : other = key
    · unfold bucket at inside
      rw [same, AList.lookup_erase] at inside
      cases inside
    · unfold bucket at inside
      rw [AList.lookup_erase_ne same] at inside
      exact keyed other r inside
  · rw [bucket_insert] at inside
    split at inside
    · rename_i isKey
      exact keyed other r (isKey ▸ List.mem_of_mem_filter inside)
    · exact keyed other r inside

/-! ## Admission -/

theorem no_conflict {pattern : RoutePattern} {acceptor : Acceptor} {routes : List Route}
    (none : conflict pattern acceptor routes = none) : ∀ route ∈ routes,
      route.pattern.overlaps pattern = false ∧ route.acceptor.sessionId ≠ acceptor.sessionId := by
  intro route inside
  have passed := List.findSome?_eq_none_iff.mp none route inside
  split at passed
  · cases passed
  · rename_i exclusive
    split at passed
    · cases passed
    · rename_i different
      exact ⟨Bool.eq_false_iff.mpr exclusive, different⟩

theorem no_shared_store {acceptor : Acceptor} {table : RouteTable} (none : table.sharesStore acceptor = none)
    (isSome : acceptor.store.isSome = true) : ∀ route ∈ table.routes, route.acceptor.store ≠ acceptor.store := by
  intro route inside same
  unfold sharesStore at none
  rw [if_pos isSome] at none
  have unfound := List.find?_eq_none.mp (Option.map_eq_none_iff.mp none) route inside
  exact unfound (beq_iff_eq.mpr same)

/-- Sessions of one id have the same CompIDs, so their patterns share a bucket. -/
theorem compIds_of_sessionId {a b : Acceptor} (same : a.sessionId = b.sessionId) :
    (RoutePattern.forSession a.config).compIds = (RoutePattern.forSession b.config).compIds := by
  have equal {x y : CompId} (value : x.value = y.value) : x = y := by
    cases x
    cases y
    cases value
    rfl
  have sender : a.config.senderCompId = b.config.senderCompId := equal (congrArg SessionId.senderCompId same)
  have target : a.config.targetCompId = b.config.targetCompId := equal (congrArg SessionId.targetCompId same)
  exact Prod.ext target sender

/-- A new session that meets no conflict and shares no store stands apart from every other. -/
theorem apart_of_admitted {table : RouteTable} {arc arcs fromLookup : Nat} {acceptor : Acceptor} {state : RouteState}
    {claims : Nat} (keyed : table.Keyed) (coherent : Coherent fromLookup arcs table.routes) (new : arcs ≤ arc)
    (noConflict : conflict (.forSession acceptor.config) acceptor
      (bucket (RoutePattern.forSession acceptor.config).compIds table.buckets) = none)
    (noShare : table.sharesStore acceptor = none) :
    ∀ route ∈ table.routes, Apart ⟨.forSession acceptor.config, arc, acceptor, state, claims⟩ route := by
  intro route inside
  have here := keyed.mem_bucket inside
  have pattern := coherent.patterns route inside
  by_cases sameKey : route.pattern.compIds = (RoutePattern.forSession acceptor.config).compIds
  · rw [sameKey] at here
    obtain ⟨exclusive, different⟩ := no_conflict noConflict route here
    refine ⟨?_, different.symm, ?_, ?_⟩
    · rw [RoutePattern.overlaps_comm]
      exact exclusive
    · intro isSome
      exact (no_shared_store noShare isSome route inside).symm
    · exact Nat.ne_of_gt (Nat.lt_of_lt_of_le (coherent.addresses route inside) new)
  · refine ⟨RoutePattern.overlaps_of_compIds_ne (Ne.symm sameKey), ?_, ?_, ?_⟩
    · intro same
      refine sameKey ?_
      rw [pattern]
      exact (compIds_of_sessionId same).symm
    · intro isSome
      exact (no_shared_store noShare isSome route inside).symm
    · exact Nat.ne_of_gt (Nat.lt_of_lt_of_le (coherent.addresses route inside) new)

end RouteTable

end IronFix.Engine
