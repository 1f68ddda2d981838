import IronFix.Engine.RegistrySteps

/-!
# What the registry keeps

At every moment of every interleaving: no Logon has two sessions it could go
to, no two sessions share what belongs to one, and a session leaves exactly
when the last handshake under it ends unauthenticated.
-/

namespace IronFix.Engine

open Lib.Bucketed Lib.Positions Lib.Transitions

/-! ## Which routes stay -/

/-- A route stays; once it is not provisional, in its state. -/
structure Carried (route kept : Route) : Prop where
  arc : kept.arc = route.arc
  pattern : kept.pattern = route.pattern
  acceptor : kept.acceptor = route.acceptor
  state : route.state ≠ .provisional → kept.state = route.state

theorem Carried.refl (route : Route) : Carried route route := ⟨rfl, rfl, rfl, fun _ => rfl⟩

theorem Carried.trans {route kept later : Route} (first : Carried route kept) (rest : Carried kept later) :
    Carried route later where
  arc := rest.arc.trans first.arc
  pattern := rest.pattern.trans first.pattern
  acceptor := rest.acceptor.trans first.acceptor
  state settled := by
    have same := first.state settled
    exact (rest.state (same ▸ settled)).trans same

namespace RouteTable

/-- Every route of a table stays in the other. -/
def Carries (table after : RouteTable) : Prop := ∀ route ∈ table.routes, ∃ kept ∈ after.routes, Carried route kept

theorem Carries.refl (table : RouteTable) : Carries table table :=
  fun route inside => ⟨route, inside, Carried.refl route⟩

theorem carries_push (arc : Nat) (pattern : RoutePattern) (acceptor : Acceptor) (state : RouteState) (claims : Nat)
    (table : RouteTable) : Carries table (table.push arc pattern acceptor state claims) := by
  intro route inside
  refine ⟨route, ?_, Carried.refl route⟩
  exact (routes_push arc pattern acceptor state claims table).mem_iff.mpr (List.mem_cons_of_mem _ inside)

theorem carries_update {key : CompId × CompId} {fits : Route → Bool} {change : Route → Route} {table : RouteTable}
    {route : Route} (found : (bucket key table.buckets).find? fits = some route)
    (carried : Carried route (change route)) : Carries table (table.update key fits change) := by
  obtain ⟨others, was, now⟩ := routes_update change found
  intro other inside
  rcases List.mem_cons.mp (was.mem_iff.mp inside) with rfl | stays
  · exact ⟨_, now.mem_iff.mpr List.mem_cons_self, carried⟩
  · exact ⟨other, now.mem_iff.mpr (List.mem_cons_of_mem _ stays), Carried.refl other⟩

theorem carries_claim {key : CompId × CompId} {fits : Route → Bool} {table : RouteTable} {route : Route}
    (claims : Nat) (found : (bucket key table.buckets).find? fits = some route) :
    Carries table (table.update key fits (claim claims)) :=
  carries_update found ⟨rfl, rfl, rfl, fun _ => rfl⟩

theorem carries_insert {arc : Nat} {pattern : RoutePattern} {acceptor : Acceptor} {origin : Origin}
    {maxSessions : Option Nat} {table after : RouteTable} {routed : Routed}
    (inserted : table.insert arc pattern acceptor origin maxSessions = .ok (routed, after)) : Carries table after := by
  rcases insert_cases inserted with ⟨route, _, raced, ⟨_, _, rfl⟩ | ⟨_, _, rfl⟩⟩ | admitted
  · exact Carries.refl _
  · exact carries_claim _ raced
  · obtain ⟨_, _, ⟨_, _, rfl⟩ | ⟨_, _, rfl, _⟩⟩ := admit_cases admitted
    · exact carries_push _ _ _ _ _ _
    · exact carries_push _ _ _ _ _ _

end RouteTable

namespace AcceptorRegistry

/-- The action releases the last claim on a provisional session, and no claim on it was ever
authenticated. -/
structure LastClaim (registry : AcceptorRegistry) (action : RegistryAction) (route : Route) : Prop where
  releases : ∃ (i : Nat) (acceptor : Acceptor) (authenticated : Bool), action = .release i ∧
    registry.connections[i]? = some (.claimed route.arc acceptor authenticated)
  provisional : route.state = .provisional
  last : registry.liveClaims route.arc = 1
  unauthenticated : route.arc ∉ registry.authenticated

/-- What a step does to the routes. -/
inductive RoutesAfter (registry : AcceptorRegistry) (action : RegistryAction) (after : RouteTable) : Prop
  /-- One route goes, with its last claim. -/
  | removed (route : Route) (others : List Route) (last : registry.LastClaim action route)
      (was : registry.table.routes.Perm (route :: others)) (now : after.routes.Perm others)
  | carried (carries : RouteTable.Carries registry.table after)
      (none : ∀ route ∈ registry.table.routes, ¬ registry.LastClaim action route)

theorem RoutesAfter.of_carries {registry : AcceptorRegistry} {action : RegistryAction} {after : RouteTable}
    (carries : RouteTable.Carries registry.table after) (kind : ∀ i, action ≠ .release i) :
    RoutesAfter registry action after := by
  refine .carried carries ?_
  intro route _ last
  obtain ⟨i, _, _, isRelease, _⟩ := last.releases
  exact kind i isRelease

/-- Nobody authenticated for a provisional session whose only claim is not authenticated. -/
theorem Held.unauthenticated {registry : AcceptorRegistry} (held : registry.Held) {i : Nat} {route : Route}
    {acceptor : Acceptor} (inside : route ∈ registry.table.routes) (provisional : route.state = .provisional)
    (connection : registry.connections[i]? = some (.claimed route.arc acceptor false))
    (last : registry.liveClaims route.arc = 1) : route.arc ∉ registry.authenticated := by
  intro vouched
  obtain ⟨j, a, here⟩ := held.pending route inside provisional vouched
  have count := liveClaims_set connection .released route.arc
  rw [last] at count
  simp only [Routing.claims, beq_self_eq_true, Bool.toNat_true, Bool.toNat_false] at count
  have still : (registry.connections.set i .released)[j]? = some (.claimed route.arc a true) := by
    rw [List.getElem?_set_ne]
    · exact here
    · rintro rfl
      rw [connection] at here
      injection here with is
      injection is with _ _ impossible
      cases impossible
  have none := List.countP_eq_zero.mp (Nat.add_right_cancel count) _ (List.mem_of_getElem? still)
  exact none (beq_self_eq_true route.arc)

theorem Held.release_routes {registry : AcceptorRegistry} (held : registry.Held) {i arc : Nat} {acceptor : Acceptor}
    {authenticated : Bool} (connection : registry.connections[i]? = some (.claimed arc acceptor authenticated)) :
    RoutesAfter registry (.release i) (registry.table.release arc acceptor authenticated) := by
  obtain ⟨route, found, rfl, rfl, _, claimed⟩ := held.find_claimed connection
  have inside : route ∈ registry.table.routes :=
    RouteTable.mem_routes.mpr ⟨_, List.mem_of_find?_eq_some found⟩
  have claims := held.claims route inside
  rcases RouteTable.release_cases authenticated found with ⟨provisional, rfl, last, released⟩ | ⟨stays, change, changed, released⟩
  · rw [released]
    obtain ⟨others, was, now⟩ := RouteTable.routes_evict (List.mem_of_find?_eq_some found) held.coherent.apart
    have one : registry.liveClaims route.arc = 1 := by omega
    exact .removed route others
      ⟨⟨i, _, false, rfl, connection⟩, provisional, one, held.unauthenticated inside provisional connection one⟩ was now
  · rw [released]
    refine .carried (RouteTable.carries_update found ?_) ?_
    · rw [changed]
      unfold RouteTable.released
      split
      · rename_i confirmed
        exact ⟨rfl, rfl, rfl, fun settled => absurd confirmed.1 settled⟩
      · exact ⟨rfl, rfl, rfl, fun _ => rfl⟩
    · intro other isOther last
      obtain ⟨j, a, b, same, here⟩ := last.releases
      obtain rfl := RegistryAction.release.inj same
      rw [connection] at here
      injection here with is
      injection is with sameArc _ _
      have isRoute : other = route := by
        by_contra different
        exact (held.coherent.apart.forall isOther inside different).arcs sameArc.symm
      subst isRoute
      cases authenticated with
      | true => exact last.unauthenticated (held.vouched i _ _ connection)
      | false =>
          have more := stays last.provisional rfl
          have one := last.last
          omega

theorem Held.routes_after {registry after : AcceptorRegistry} (held : registry.Held) {action : RegistryAction}
    (taken : registry.step action = some after) : RoutesAfter registry action after.table := by
  cases action with
  | register acceptor =>
      obtain rfl := Option.some.inj taken
      refine .of_carries ?_ (fun i is => by cases is)
      unfold AcceptorRegistry.register
      split
      · exact RouteTable.Carries.refl _
      · split
        · exact RouteTable.Carries.refl _
        · rename_i inserted
          exact RouteTable.carries_insert inserted
  | connect identity =>
      obtain rfl := Option.some.inj taken
      exact .of_carries (RouteTable.Carries.refl _) (fun i is => by cases is)
  | findRead i =>
      refine .of_carries ?_ (fun i is => by cases is)
      simp only [AcceptorRegistry.step] at taken
      split at taken
      · split at taken
        all_goals
          obtain rfl := Option.some.inj taken
          exact RouteTable.Carries.refl _
      · cases taken
  | findWrite i =>
      refine .of_carries ?_ (fun i is => by cases is)
      simp only [AcceptorRegistry.step] at taken
      split at taken
      · split at taken
        · obtain rfl := Option.some.inj taken
          exact RouteTable.Carries.refl _
        · rename_i routed table found
          obtain rfl := Option.some.inj taken
          obtain ⟨route, first, ⟨_, _, rfl⟩ | ⟨_, _, rfl⟩⟩ := RouteTable.findWrite_cases found
          · exact RouteTable.Carries.refl _
          · exact RouteTable.carries_claim _ first
      · cases taken
  | resolve i answer =>
      refine .of_carries ?_ (fun i is => by cases is)
      simp only [AcceptorRegistry.step] at taken
      split at taken
      · cases answer with
        | _ =>
            obtain rfl := Option.some.inj taken
            exact RouteTable.Carries.refl _
      · cases taken
  | admitResolved i =>
      refine .of_carries ?_ (fun i is => by cases is)
      simp only [AcceptorRegistry.step] at taken
      split at taken
      · obtain rfl := Option.some.inj taken
        unfold AcceptorRegistry.admitResolved
        dsimp only
        split
        · split
          · exact RouteTable.Carries.refl _
          · split
            · exact RouteTable.Carries.refl _
            · rename_i inserted
              exact RouteTable.carries_insert inserted
        · exact RouteTable.Carries.refl _
      · cases taken
  | authenticate i =>
      refine .of_carries ?_ (fun i is => by cases is)
      simp only [AcceptorRegistry.step] at taken
      split at taken
      · obtain rfl := Option.some.inj taken
        exact RouteTable.Carries.refl _
      · cases taken
  | release i =>
      simp only [AcceptorRegistry.step] at taken
      split at taken
      · rename_i arc acceptor authenticated connection
        obtain rfl := Option.some.inj taken
        exact held.release_routes connection
      · cases taken

/-- A route goes exactly with its last claim. -/
theorem Held.removed_iff {registry after : AcceptorRegistry} (held : registry.Held) {action : RegistryAction}
    (taken : registry.step action = some after) {route : Route} (inside : route ∈ registry.table.routes) :
    (∀ kept ∈ after.table.routes, kept.arc ≠ route.arc) ↔ registry.LastClaim action route := by
  cases held.routes_after taken with
  | removed gone others last was now =>
      rcases List.mem_cons.mp (was.mem_iff.mp inside) with rfl | stays
      · refine ⟨fun _ => last, fun _ => ?_⟩
        intro kept here
        exact held.unique was (now.mem_iff.mp here)
      · constructor
        · intro none
          exact absurd rfl (none route (now.mem_iff.mpr stays))
        · intro also
          obtain ⟨i, _, _, rfl, here⟩ := last.releases
          obtain ⟨j, _, _, same, there⟩ := also.releases
          obtain rfl := RegistryAction.release.inj same
          rw [here] at there
          injection there with is
          injection is with sameArc _ _
          exact absurd sameArc.symm (held.unique was stays)
  | carried carries none =>
      constructor
      · intro gone
        obtain ⟨kept, here, carried⟩ := carries route inside
        exact absurd carried.arc (gone kept here)
      · exact fun last => absurd last (none route inside)

/-- A registered or confirmed route stays. -/
theorem Held.settled_stays {registry after : AcceptorRegistry} (held : registry.Held) {action : RegistryAction}
    (taken : registry.step action = some after) {route : Route} (inside : route ∈ registry.table.routes)
    (settled : route.state ≠ .provisional) : ∃ kept ∈ after.table.routes, Carried route kept := by
  cases held.routes_after taken with
  | removed gone others last was now =>
      rcases List.mem_cons.mp (was.mem_iff.mp inside) with rfl | stays
      · exact absurd last.provisional settled
      · exact ⟨route, now.mem_iff.mpr stays, Carried.refl route⟩
  | carried carries none => exact carries route inside

theorem Held.of_reaches {registry later : AcceptorRegistry} (held : registry.Held)
    (reached : Reaches AcceptorRegistry.step anyStep registry later) : later.Held :=
  reached.invariant (fun _ _ _ held _ taken => held.step taken) held

theorem Held.settled_stays_later {registry later : AcceptorRegistry} (held : registry.Held)
    (reached : Reaches AcceptorRegistry.step anyStep registry later) {route : Route}
    (inside : route ∈ registry.table.routes) (settled : route.state ≠ .provisional) :
    ∃ kept ∈ later.table.routes, Carried route kept := by
  have both : later.Held ∧ ∃ kept ∈ later.table.routes, Carried route kept := by
    refine reached.invariant (P := fun later => later.Held ∧ ∃ kept ∈ later.table.routes, Carried route kept) ?_
      ⟨held, route, inside, Carried.refl route⟩
    rintro s action s' ⟨held, kept, here, carried⟩ _ taken
    have stillSettled : kept.state ≠ .provisional := by
      rw [carried.state settled]
      exact settled
    obtain ⟨next, there, carriedOn⟩ := held.settled_stays taken here stillSettled
    exact ⟨held.step taken, next, there, carried.trans carriedOn⟩
  exact both.2

/-! ## The registry's invariants -/

/-- The first session of the registry that admits the Logon is the only one. -/
theorem Held.admits_once {registry : AcceptorRegistry} (held : registry.Held) (identity : LogonIdentity) :
    (registry.table.routes.filter fun route => route.pattern.admits identity).length ≤ 1 := by
  have apart := held.coherent.apart.filter fun route => route.pattern.admits identity
  have admits : ∀ route ∈ registry.table.routes.filter fun route => route.pattern.admits identity,
      route.pattern.admits identity = true := fun route here => (List.mem_filter.mp here).2
  revert apart admits
  generalize registry.table.routes.filter (fun route => route.pattern.admits identity) = admitted
  intro apart admits
  rcases admitted with _ | ⟨first, _ | ⟨second, rest⟩⟩
  · exact Nat.zero_le _
  · exact Nat.le_refl _
  · have exclusive := ((List.pairwise_cons.mp apart).1 second List.mem_cons_self).exclusive
    rw [RoutePattern.overlaps_of_admits (admits first List.mem_cons_self)
      (admits second (List.mem_cons_of_mem _ List.mem_cons_self))] at exclusive
    cases exclusive

/-- What the registry promises of a state it is in. -/
structure Kept (registry : AcceptorRegistry) : Prop where
  admits : ∀ identity : LogonIdentity,
    (registry.table.routes.filter fun route => route.pattern.admits identity).length ≤ 1
  sessions : registry.table.routes.Pairwise fun route other => route.acceptor.sessionId ≠ other.acceptor.sessionId
  stores : registry.table.routes.Pairwise fun route other =>
    route.acceptor.store.isSome = true → route.acceptor.store ≠ other.acceptor.store
  counted : registry.table.fromLookup = registry.table.routes.countP fun route => route.state != .registered
  capped : ∀ most, registry.maxSessions = some most → registry.table.fromLookup ≤ most
  claims : ∀ route ∈ registry.table.routes, route.claims = registry.liveClaims route.arc
  removed : ∀ action after, registry.step action = some after → ∀ route ∈ registry.table.routes,
    (∀ kept ∈ after.table.routes, kept.arc ≠ route.arc) ↔ registry.LastClaim action route
  stays : ∀ later, Reaches AcceptorRegistry.step anyStep registry later → ∀ route ∈ registry.table.routes,
    route.state ≠ .provisional → ∃ kept ∈ later.table.routes,
      kept.arc = route.arc ∧ kept.pattern = route.pattern ∧ kept.acceptor = route.acceptor ∧ kept.state = route.state

theorem Held.kept {registry : AcceptorRegistry} (held : registry.Held) : registry.Kept where
  admits := held.admits_once
  sessions := held.coherent.apart.imp fun apart => apart.sessions
  stores := held.coherent.apart.imp fun apart => apart.stores
  counted := held.coherent.counted
  capped := held.capped
  claims := held.claims
  removed _ _ taken _ inside := held.removed_iff taken inside
  stays later reached route inside settled := by
    obtain ⟨kept, here, carried⟩ := held.settled_stays_later reached inside settled
    exact ⟨kept, here, carried.arc, carried.pattern, carried.acceptor, carried.state settled⟩

end AcceptorRegistry

/-- Overlapping is symmetric, and between sessions that can be used it is that some Logon is
admitted by both. -/
structure OverlapsExactly : Prop where
  symmetric : ∀ pattern other : RoutePattern, pattern.overlaps other = other.overlaps pattern
  exact : ∀ acceptor other : Acceptor, acceptor.preflight = .ok () → other.preflight = .ok () →
    ((RoutePattern.forSession acceptor.config).overlaps (.forSession other.config) = true ↔
      ∃ identity, (RoutePattern.forSession acceptor.config).admits identity = true ∧
        (RoutePattern.forSession other.config).admits identity = true)

theorem Acceptor.validate_of_preflight {acceptor : Acceptor} (usable : acceptor.preflight = .ok ()) :
    acceptor.config.validate = .ok () := by
  unfold preflight at usable
  split at usable
  · cases usable
  · rename_i valid
    exact valid

theorem overlapsExactly : OverlapsExactly where
  symmetric := RoutePattern.overlaps_comm
  exact _ _ usable alsoUsable :=
    RoutePattern.overlaps_iff (RoutePattern.claimable_forSession (Acceptor.validate_of_preflight usable))
      (RoutePattern.claimable_forSession (Acceptor.validate_of_preflight alsoUsable))

namespace AcceptorRegistry

/-- In every interleaving of registrations, connections, lookups and releases. -/
theorem registry_kept (lookup : Bool) (maxSessions : Option Nat) {registry : AcceptorRegistry}
    (reached : Reaches AcceptorRegistry.step anyStep (new lookup maxSessions) registry) :
    OverlapsExactly ∧ registry.Kept :=
  ⟨overlapsExactly, ((new_held lookup maxSessions).of_reaches reached).kept⟩

/-- A registered session, and one that two Logons race for: one of them is authenticated. -/
def raceForOne : List RegistryAction :=
  let named (byte : UInt8) (printable : isPrintable byte = true) : CompId :=
    ⟨[byte], by simp, by simp [MAX_ID_LEN, COMP_ID_MAX_LEN], by simp [printable]⟩
  let venue := named 0x56 rfl
  let config (client : CompId) : SessionConfig :=
    ⟨[0x46], venue, client, none, none, none, none, .ok (), .ok ()⟩
  let claims : LogonIdentity := ⟨named 0x42 rfl, venue, none, none, none, none, by simp⟩
  let resolved : Acceptor := ⟨config (named 0x42 rfl), none, some 2⟩
  [.register ⟨config (named 0x41 rfl), none, some 1⟩, .connect claims, .findRead 0, .resolve 0 (.found resolved),
    .admitResolved 0, .connect claims, .findRead 1, .findWrite 1, .authenticate 1, .release 0, .release 1]

theorem raceForOne_kept : ∃ registry, run AcceptorRegistry.step (new true (some 1)) raceForOne = some registry ∧
    registry.table.routes.map (fun route => route.state) = [.confirmed, .registered] ∧
    OverlapsExactly ∧ registry.Kept := by
  obtain ⟨registry, ran, states⟩ :
      ∃ registry, run AcceptorRegistry.step (new true (some 1)) raceForOne = some registry ∧
        registry.table.routes.map (fun route => route.state) = [.confirmed, .registered] := ⟨_, rfl, rfl⟩
  exact ⟨registry, ran, states, registry_kept true (some 1) (reaches_of_run ran)⟩

end AcceptorRegistry

end IronFix.Engine
