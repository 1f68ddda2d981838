import IronFix.Engine.RouteTables
import IronFix.Lib.Positions

/-!
# Every interleaving of the registry

Claims are counted under the lock that takes and releases them, so a
provisional session goes exactly with its last claim, unless a handshake under
one of them was authenticated.
-/

namespace IronFix.Engine

open Lib.Bucketed Lib.Decimal Lib.Positions Lib.Transitions

/-- The connection holds a claim on this session. -/
def Routing.claims (arc : Nat) : Routing → Bool
  | .claimed held _ _ => held == arc
  | _ => false

/-- It holds no claim at all. -/
def Routing.unclaimed : Routing → Bool
  | .claimed _ _ _ => false
  | _ => true

theorem Routing.claims_of_unclaimed {routing : Routing} (unclaimed : routing.unclaimed = true) (arc : Nat) :
    routing.claims arc = false := by
  cases routing <;> first | rfl | cases unclaimed

namespace AcceptorRegistry

/-- The claims on a session that are not released. -/
def liveClaims (arc : Nat) (registry : AcceptorRegistry) : Nat :=
  registry.connections.countP (Routing.claims arc)

structure Held (registry : AcceptorRegistry) : Prop where
  keyed : registry.table.Keyed
  coherent : Coherent registry.table.fromLookup registry.arcs registry.table.routes
  capped : ∀ most, registry.maxSessions = some most → registry.table.fromLookup ≤ most
  claims : ∀ route ∈ registry.table.routes, route.claims = registry.liveClaims route.arc
  held : ∀ (i arc : Nat) (acceptor : Acceptor) (authenticated : Bool),
    registry.connections[i]? = some (.claimed arc acceptor authenticated) →
    ∃ route ∈ registry.table.routes, route.arc = arc ∧ route.acceptor = acceptor ∧
      route.state ≠ .registered
  vouched : ∀ (i arc : Nat) (acceptor : Acceptor),
    registry.connections[i]? = some (.claimed arc acceptor true) → arc ∈ registry.authenticated
  /-- A session that is still provisional waits for the claims that were authenticated. -/
  pending : ∀ route ∈ registry.table.routes, route.state = .provisional →
    route.arc ∈ registry.authenticated →
    ∃ (i : Nat) (acceptor : Acceptor), registry.connections[i]? = some (.claimed route.arc acceptor true)
  past : ∀ arc ∈ registry.authenticated, arc < registry.arcs

theorem new_held (lookup : Bool) (maxSessions : Option Nat) : (new lookup maxSessions).Held where
  keyed key route inside := by cases inside
  coherent := ⟨List.Pairwise.nil, by simp [new, RouteTable.new, RouteTable.routes, all],
    by simp [new, RouteTable.new, RouteTable.routes, all],
    by simp [new, RouteTable.new, RouteTable.routes, all], rfl⟩
  capped most _ := Nat.zero_le most
  claims route inside := by cases inside
  held i arc acceptor authenticated here := by simp [new] at here
  vouched i arc acceptor here := by simp [new] at here
  pending route inside := by cases inside
  past arc inside := by cases inside

/-- A route of the address, and it is that route. -/
theorem Held.unique {registry : AcceptorRegistry} (held : registry.Held) {route other : Route} {others : List Route}
    (split : registry.table.routes.Perm (route :: others)) (inside : other ∈ others) : other.arc ≠ route.arc := by
  have apart := (held.coherent.perm split).apart
  exact ((List.pairwise_cons.mp apart).1 other inside).arcs.symm

theorem liveClaims_set {registry : AcceptorRegistry} {i : Nat} {old : Routing}
    (found : registry.connections[i]? = some old) (new : Routing) (arc : Nat) :
    (registry.setConnection i new).liveClaims arc + (old.claims arc).toNat =
      registry.liveClaims arc + (new.claims arc).toNat :=
  countP_set (Routing.claims arc) found new

/-- A connection that holds no claim moves on, still without one. -/
theorem Held.idle {registry : AcceptorRegistry} (held : registry.Held) {i arcs : Nat} {old new : Routing}
    (found : registry.connections[i]? = some old) (before : old.unclaimed = true) (after : new.unclaimed = true)
    (grows : registry.arcs ≤ arcs) : Held { registry.setConnection i new with arcs } where
  keyed := held.keyed
  coherent := held.coherent.widen grows
  capped := held.capped
  claims route inside := by
    have count := liveClaims_set found new route.arc
    rw [Routing.claims_of_unclaimed before, Routing.claims_of_unclaimed after] at count
    rw [held.claims route inside]
    exact count.symm
  held j arc acceptor authenticated here := by
    rcases getElem?_set_cases here with ⟨_, rfl⟩ | ⟨_, here⟩
    · cases after
    · exact held.held j arc acceptor authenticated here
  vouched j arc acceptor here := by
    rcases getElem?_set_cases here with ⟨_, rfl⟩ | ⟨_, here⟩
    · cases after
    · exact held.vouched j arc acceptor here
  pending route inside provisional authenticated := by
    obtain ⟨j, acceptor, here⟩ := held.pending route inside provisional authenticated
    refine ⟨j, acceptor, ?_⟩
    show (registry.connections.set i new)[j]? = _
    rw [List.getElem?_set_ne]
    · exact here
    · rintro rfl
      rw [found] at here
      obtain rfl := Option.some.inj here
      cases before
  past arc inside := Nat.lt_of_lt_of_le (held.past arc inside) grows

/-- A route and a connection change together. -/
theorem Held.change {registry : AcceptorRegistry} (held : registry.Held) {i arcs : Nat} {old new : Routing}
    {table : RouteTable} {route changed : Route} {others : List Route}
    (found : registry.connections[i]? = some old) (keyed : table.Keyed)
    (fromLookup : table.fromLookup = registry.table.fromLookup)
    (was : registry.table.routes.Perm (route :: others)) (now : table.routes.Perm (changed :: others))
    (same : Same route changed) (lookedUp : route.state ≠ .registered)
    (only : ∀ arc, arc ≠ route.arc → old.claims arc = false ∧ new.claims arc = false)
    (counted : changed.claims + (old.claims route.arc).toNat = route.claims + (new.claims route.arc).toNat)
    (holds : ∀ arc acceptor authenticated, new = .claimed arc acceptor authenticated →
      arc = route.arc ∧ acceptor = route.acceptor ∧ (authenticated = true → arc ∈ registry.authenticated))
    (pending : changed.state = .provisional → route.arc ∈ registry.authenticated →
      ∃ (j : Nat) (acceptor : Acceptor),
        (registry.connections.set i new)[j]? = some (.claimed route.arc acceptor true))
    (grows : registry.arcs ≤ arcs) : Held { registry.setConnection i new with table, arcs } := by
  have isRoute : route ∈ registry.table.routes := was.mem_iff.mpr List.mem_cons_self
  have other {r : Route} (inside : r ∈ others) : r ∈ registry.table.routes ∧ r.arc ≠ route.arc :=
    ⟨was.mem_iff.mpr (List.mem_cons_of_mem _ inside), held.unique was inside⟩
  have cases {r : Route} (inside : r ∈ table.routes) : r = changed ∨ r ∈ others :=
    List.mem_cons.mp (now.mem_iff.mp inside)
  -- a claim on a route that stays is a claim on what the route became
  have kept {r : Route} (inside : r ∈ registry.table.routes) (isLookedUp : r.state ≠ .registered) :
      ∃ r' ∈ table.routes, r'.arc = r.arc ∧ r'.acceptor = r.acceptor ∧ r'.state ≠ .registered := by
    rcases List.mem_cons.mp (was.mem_iff.mp inside) with rfl | inside
    · refine ⟨changed, now.mem_iff.mpr List.mem_cons_self, same.arc, same.acceptor, ?_⟩
      have state := same.state
      rw [bne_iff_ne.mpr isLookedUp] at state
      exact bne_iff_ne.mp state
    · exact ⟨r, now.mem_iff.mpr (List.mem_cons_of_mem _ inside), rfl, rfl, isLookedUp⟩
  have count := liveClaims_set found new
  refine ⟨keyed, ?_, ?_, ?_, ?_, ?_, ?_, ?_⟩
  · have whole := ((held.coherent.perm was).replace same).perm now.symm
    exact fromLookup ▸ whole.widen grows
  · intro most isMost
    show table.fromLookup ≤ most
    rw [fromLookup]
    exact held.capped most isMost
  · intro r inside
    rcases cases inside with rfl | inside
    · have claims := held.claims route isRoute
      have here := count route.arc
      rw [same.arc]
      show r.claims = (registry.setConnection i new).liveClaims route.arc
      omega
    · obtain ⟨here, different⟩ := other inside
      have same := count r.arc
      rw [(only r.arc different).1, (only r.arc different).2] at same
      rw [held.claims r here]
      exact same.symm
  · intro j arc acceptor authenticated here
    rcases getElem?_set_cases here with ⟨_, rfl⟩ | ⟨_, here⟩
    · obtain ⟨rfl, rfl, _⟩ := holds arc acceptor authenticated rfl
      exact kept isRoute lookedUp
    · obtain ⟨r, inside, rfl, rfl, isLookedUp⟩ := held.held j arc acceptor authenticated here
      exact kept inside isLookedUp
  · intro j arc acceptor here
    rcases getElem?_set_cases here with ⟨_, rfl⟩ | ⟨_, here⟩
    · exact (holds arc acceptor true rfl).2.2 rfl
    · exact held.vouched j arc acceptor here
  · intro r inside provisional authenticated
    rcases cases inside with rfl | inside
    · rw [same.arc] at authenticated ⊢
      exact pending provisional authenticated
    · obtain ⟨here, different⟩ := other inside
      obtain ⟨j, acceptor, claimed⟩ := held.pending r here provisional authenticated
      refine ⟨j, acceptor, ?_⟩
      show (registry.connections.set i new)[j]? = _
      rw [List.getElem?_set_ne]
      · exact claimed
      · rintro rfl
        rw [found] at claimed
        obtain rfl := Option.some.inj claimed
        have none := (only r.arc different).1
        simp [Routing.claims] at none
  · intro arc inside
    exact Nat.lt_of_lt_of_le (held.past arc inside) grows

/-- A connection finds a provisional route, and counts its claim on it. -/
theorem Held.takeClaim {registry : AcceptorRegistry} (held : registry.Held) {i arcs : Nat} {old : Routing}
    {key : CompId × CompId} {fits : Route → Bool} {route : Route}
    (connection : registry.connections[i]? = some old) (unclaimed : old.unclaimed = true)
    (found : (bucket key registry.table.buckets).find? fits = some route) (provisional : route.state = .provisional)
    (grows : registry.arcs ≤ arcs) :
    Held { registry.setConnection i (.claimed route.arc route.acceptor false) with
      table := registry.table.update key fits (RouteTable.claim (route.claims + 1))
      arcs } := by
  obtain ⟨others, was, now⟩ := RouteTable.routes_update (RouteTable.claim (route.claims + 1)) found
  have isRoute : route ∈ registry.table.routes := was.mem_iff.mpr List.mem_cons_self
  refine held.change connection (held.keyed.update found rfl) rfl was now ⟨rfl, rfl, rfl, rfl⟩ ?_ ?_ ?_ ?_ ?_ grows
  · rw [provisional]
    simp
  · intro arc different
    refine ⟨Routing.claims_of_unclaimed unclaimed arc, ?_⟩
    simp [Routing.claims, Ne.symm different]
  · rw [Routing.claims_of_unclaimed unclaimed]
    simp [RouteTable.claim, Routing.claims]
  · intro arc acceptor authenticated same
    cases same
    exact ⟨rfl, rfl, fun h => by cases h⟩
  · intro _ authenticated
    obtain ⟨j, acceptor, here⟩ := held.pending route isRoute provisional authenticated
    refine ⟨j, acceptor, ?_⟩
    rw [List.getElem?_set_ne]
    · exact here
    · rintro rfl
      rw [connection] at here
      obtain rfl := Option.some.inj here
      cases unclaimed

/-- No claim is on a session that is not there yet. -/
theorem Held.liveClaims_new {registry : AcceptorRegistry} (held : registry.Held) :
    registry.liveClaims registry.arcs = 0 := by
  refine List.countP_eq_zero.mpr ?_
  intro routing inside claims
  obtain ⟨i, here⟩ := List.mem_iff_getElem?.mp inside
  cases routing with
  | claimed arc acceptor authenticated =>
      obtain ⟨route, isRoute, same, _, _⟩ := held.held i arc acceptor authenticated here
      have below := held.coherent.addresses route isRoute
      rw [same, eq_of_beq claims] at below
      exact Nat.lt_irrefl _ below
  | _ => cases claims

/-- A new session joins, with the claim of the connection that brought it or without one. -/
theorem Held.join {registry after : AcceptorRegistry} (held : registry.Held) {acceptor : Acceptor}
    {state : RouteState} {claims : Nat} (usable : acceptor.preflight = .ok ())
    (noConflict : RouteTable.conflict (.forSession acceptor.config) acceptor
      (bucket (RoutePattern.forSession acceptor.config).compIds registry.table.buckets) = none)
    (noShare : registry.table.sharesStore acceptor = none)
    (table : after.table.buckets =
      (registry.table.push registry.arcs (.forSession acceptor.config) acceptor state claims).buckets)
    (fromLookup : after.table.fromLookup = registry.table.fromLookup + (state != .registered).toNat)
    (capped : ∀ most, after.maxSessions = some most → after.table.fromLookup ≤ most)
    (arcs : after.arcs = registry.arcs + 1) (authenticated : after.authenticated = registry.authenticated)
    (counted : claims = after.liveClaims registry.arcs)
    (others : ∀ arc, arc ≠ registry.arcs → after.liveClaims arc = registry.liveClaims arc)
    (connections : ∀ (j arc : Nat) (a : Acceptor) (b : Bool), after.connections[j]? = some (.claimed arc a b) →
      registry.connections[j]? = some (.claimed arc a b) ∨
        (arc = registry.arcs ∧ a = acceptor ∧ b = false ∧ state ≠ .registered))
    (still : ∀ (j arc : Nat) (a : Acceptor), registry.connections[j]? = some (.claimed arc a true) →
      after.connections[j]? = some (.claimed arc a true)) : after.Held := by
  have whole : after.table.routes.Perm (⟨.forSession acceptor.config, registry.arcs, acceptor, state, claims⟩ ::
      registry.table.routes) := by
    unfold RouteTable.routes
    rw [table]
    exact RouteTable.routes_push _ _ _ _ _ _
  have cases {r : Route} (inside : r ∈ after.table.routes) :
      r = ⟨.forSession acceptor.config, registry.arcs, acceptor, state, claims⟩ ∨ r ∈ registry.table.routes :=
    List.mem_cons.mp (whole.mem_iff.mp inside)
  have coherent := held.coherent
  refine ⟨?_, ?_, capped, ?_, ?_, ?_, ?_, ?_⟩
  · intro key route inside
    rw [table] at inside
    exact held.keyed.push _ _ _ _ _ key route inside
  · refine Coherent.perm ?_ whole.symm
    refine ⟨?_, ?_, ?_, ?_, ?_⟩
    · refine List.pairwise_cons.mpr ⟨?_, coherent.apart⟩
      exact RouteTable.apart_of_admitted held.keyed coherent (Nat.le_refl _) noConflict noShare
    · intro route inside
      rcases List.mem_cons.mp inside with rfl | inside
      · rfl
      · exact coherent.patterns route inside
    · intro route inside
      rcases List.mem_cons.mp inside with rfl | inside
      · exact usable
      · exact coherent.usable route inside
    · intro route inside
      rw [arcs]
      rcases List.mem_cons.mp inside with rfl | inside
      · exact Nat.lt_succ_self _
      · exact Nat.lt_succ_of_lt (coherent.addresses route inside)
    · rw [fromLookup, coherent.counted]
      unfold lookedUp
      rw [List.countP_cons]
      cases (state != .registered) <;> simp
  · intro route inside
    rcases cases inside with rfl | inside
    · exact counted
    · rw [held.claims route inside]
      exact (others route.arc (Nat.ne_of_lt (coherent.addresses route inside))).symm
  · intro j arc a b here
    rcases connections j arc a b here with old | ⟨rfl, rfl, _, isLookedUp⟩
    · obtain ⟨route, inside, facts⟩ := held.held j arc a b old
      exact ⟨route, whole.mem_iff.mpr (List.mem_cons_of_mem _ inside), facts⟩
    · exact ⟨_, whole.mem_iff.mpr List.mem_cons_self, rfl, rfl, isLookedUp⟩
  · intro j arc a here
    rw [authenticated]
    rcases connections j arc a true here with old | ⟨_, _, impossible, _⟩
    · exact held.vouched j arc a old
    · cases impossible
  · intro route inside provisional vouched
    rw [authenticated] at vouched
    rcases cases inside with rfl | inside
    · exact absurd (held.past _ vouched) (Nat.lt_irrefl _)
    · obtain ⟨j, a, here⟩ := held.pending route inside provisional vouched
      exact ⟨j, a, still j _ a here⟩
  · intro arc inside
    rw [authenticated] at inside
    rw [arcs]
    exact Nat.lt_succ_of_lt (held.past arc inside)

end AcceptorRegistry

end IronFix.Engine
