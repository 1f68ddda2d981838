import IronFix.Engine.RegistryRuns

/-!
# Steps of the registry

Every step keeps what holds of the registry, and only the release of the last
claim on a session nobody authenticated for takes a route away.
-/

namespace IronFix.Engine

open Lib.Bucketed Lib.Decimal Lib.Positions Lib.Transitions

namespace RouteTable

/-! ## What insertion does -/

/-- How a session is admitted that was not there before. -/
theorem admit_cases {arc : Nat} {pattern : RoutePattern} {acceptor : Acceptor} {origin : Origin}
    {maxSessions : Option Nat} {table after : RouteTable} {routed : Routed}
    (admitted : table.admitNew arc pattern acceptor origin maxSessions = .ok (routed, after)) :
    conflict pattern acceptor (bucket pattern.compIds table.buckets) = none ∧ table.sharesStore acceptor = none ∧
      (origin = .registered ∧ routed = .kept arc ∧ after = table.push arc pattern acceptor .registered 0 ∨
        origin = .lookup ∧ routed = .provisional arc acceptor ∧
          after = { table.push arc pattern acceptor .provisional 1 with fromLookup := table.fromLookup + 1 } ∧
          ∀ most, maxSessions = some most → table.fromLookup < most) := by
  unfold admitNew at admitted
  split at admitted
  · cases admitted
  · cases admitted
  · rename_i noConflict noShare
    refine ⟨noConflict, noShare, ?_⟩
    split at admitted
    · obtain ⟨rfl, rfl⟩ := Prod.mk.inj (Except.ok.inj admitted)
      exact .inl ⟨rfl, rfl, rfl⟩
    · split at admitted
      · cases admitted
      · rename_i room
        split at admitted
        · cases admitted
        · rename_i fromLookup counted
          obtain ⟨rfl, rfl⟩ := Prod.mk.inj (Except.ok.inj admitted)
          obtain ⟨rfl, -⟩ := checkedAdd_eq_some.mp counted
          refine .inr ⟨rfl, rfl, rfl, ?_⟩
          intro most isMost
          rw [isMost] at room
          by_contra full
          rw [Option.filter_some_pos (by simpa using Nat.le_of_not_lt full)] at room
          cases room

/-- A session of the same pattern that a lookup admitted first is kept. -/
theorem insert_cases {arc : Nat} {pattern : RoutePattern} {acceptor : Acceptor} {origin : Origin}
    {maxSessions : Option Nat} {table after : RouteTable} {routed : Routed}
    (inserted : table.insert arc pattern acceptor origin maxSessions = .ok (routed, after)) :
    (∃ route, origin = .lookup ∧
      (bucket pattern.compIds table.buckets).find? (fun route => route.pattern == pattern) = some route ∧
      (route.state ≠ .provisional ∧ routed = .kept route.arc ∧ after = table ∨
        route.state = .provisional ∧ routed = .provisional route.arc route.acceptor ∧
          after = table.update pattern.compIds (fun route => route.pattern == pattern) (claim (route.claims + 1)))) ∨
      table.admitNew arc pattern acceptor origin maxSessions = .ok (routed, after) := by
  unfold RouteTable.insert at inserted
  dsimp only at inserted
  split at inserted
  · rename_i route raced
    split at raced
    · rename_i isLookup
      refine .inl ⟨route, isLookup, raced, ?_⟩
      split at inserted
      · rename_i settled
        obtain ⟨rfl, rfl⟩ := Prod.mk.inj (Except.ok.inj inserted)
        exact .inl ⟨settled, rfl, rfl⟩
      · rename_i unsettled
        split at inserted
        · cases inserted
        · rename_i claims counted
          obtain ⟨rfl, rfl⟩ := Prod.mk.inj (Except.ok.inj inserted)
          obtain ⟨rfl, -⟩ := checkedAdd_eq_some.mp counted
          exact .inr ⟨Decidable.not_not.mp unsettled, rfl, rfl⟩
    · cases raced
  · exact .inr inserted

/-- A Logon finds a session under the write lock. -/
theorem findWrite_cases {identity : LogonIdentity} {table after : RouteTable} {routed : Routed}
    (found : table.findWrite identity = some (routed, after)) :
    ∃ route, (bucket (keyOf identity) table.buckets).find? (fun route => route.pattern.admits identity) = some route ∧
      (route.state ≠ .provisional ∧ routed = .kept route.arc ∧ after = table ∨
        route.state = .provisional ∧ routed = .provisional route.arc route.acceptor ∧
          after = table.update (keyOf identity) (fun route => route.pattern.admits identity)
            (claim (route.claims + 1))) := by
  unfold findWrite at found
  split at found
  · cases found
  · rename_i route first
    refine ⟨route, first, ?_⟩
    split at found
    · rename_i settled
      obtain ⟨rfl, rfl⟩ := Prod.mk.inj (Option.some.inj found)
      exact .inl ⟨settled, rfl, rfl⟩
    · rename_i unsettled
      obtain ⟨claims, counted, taken⟩ := Option.map_eq_some_iff.mp found
      obtain ⟨rfl, rfl⟩ := Prod.mk.inj taken
      obtain ⟨rfl, -⟩ := checkedAdd_eq_some.mp counted
      exact .inr ⟨Decidable.not_not.mp unsettled, rfl, rfl⟩

/-! ## What a release does -/

/-- The route after a claim on it is released, when it stays. -/
def released (authenticated : Bool) (route : Route) : Route :=
  if route.state = .provisional ∧ authenticated = true then
    { claim (route.claims - 1) route with state := .confirmed }
  else claim (route.claims - 1) route

/-- A release takes the route away, or uncounts the claim and confirms what it authenticated. -/
theorem release_cases {arc : Nat} {acceptor : Acceptor} (authenticated : Bool) {table : RouteTable} {route : Route}
    (found : (bucket (acceptor.config.targetCompId, acceptor.config.senderCompId) table.buckets).find?
      (fun route => route.arc == arc) = some route) :
    (route.state = .provisional ∧ authenticated = false ∧ route.claims ≤ 1 ∧
      table.release arc acceptor authenticated =
        table.evict (acceptor.config.targetCompId, acceptor.config.senderCompId) arc) ∨
    ((route.state = .provisional → authenticated = false → 1 < route.claims) ∧
      ∃ change, change route = released authenticated route ∧
        table.release arc acceptor authenticated =
          table.update (acceptor.config.targetCompId, acceptor.config.senderCompId) (fun route => route.arc == arc)
            change) := by
  unfold release released
  dsimp only
  rw [found]
  dsimp only
  by_cases provisional : route.state = .provisional
  · cases authenticated with
    | true =>
        refine .inr ⟨fun _ impossible => (by cases impossible),
          fun other => { claim (other.claims - 1) other with state := .confirmed }, ?_, ?_⟩
        · rw [if_pos ⟨provisional, rfl⟩]
        · rw [if_neg (by simp [provisional]), if_pos rfl]
    | false =>
        by_cases more : 0 < route.claims - 1
        · refine .inr ⟨fun _ _ => (by omega), claim (route.claims - 1), ?_, ?_⟩
          · rw [if_neg (by simp)]
          · rw [if_neg (by simp [provisional]), if_neg (by simp), if_pos more]
        · refine .inl ⟨provisional, rfl, by omega, ?_⟩
          rw [if_neg (by simp [provisional]), if_neg (by simp), if_neg more]
  · refine .inr ⟨fun is => absurd is provisional, claim (route.claims - 1), ?_, ?_⟩
    · rw [if_neg (fun is => provisional is.1)]
    · rw [if_pos provisional]

end RouteTable

namespace AcceptorRegistry

/-- The session a claim is on. -/
theorem Held.find_claimed {registry : AcceptorRegistry} (held : registry.Held) {i arc : Nat} {acceptor : Acceptor}
    {authenticated : Bool} (connection : registry.connections[i]? = some (.claimed arc acceptor authenticated)) :
    ∃ route, (bucket (acceptor.config.targetCompId, acceptor.config.senderCompId) registry.table.buckets).find?
      (fun route => route.arc == arc) = some route ∧ route.arc = arc ∧ route.acceptor = acceptor ∧
      route.state ≠ .registered ∧ 0 < route.claims := by
  obtain ⟨route, inside, rfl, rfl, isLookedUp⟩ := held.held i arc acceptor authenticated connection
  have here := held.keyed.mem_bucket inside
  rw [held.coherent.patterns route inside] at here
  have claimed : 0 < route.claims := by
    rw [held.claims route inside]
    refine List.countP_pos_iff.mpr ⟨_, List.mem_of_getElem? connection, ?_⟩
    exact beq_self_eq_true route.arc
  refine ⟨route, ?_, rfl, rfl, isLookedUp, claimed⟩
  cases first : (bucket (route.acceptor.config.targetCompId, route.acceptor.config.senderCompId)
      registry.table.buckets).find? (fun other => other.arc == route.arc) with
  | none => exact absurd (beq_self_eq_true route.arc) (List.find?_eq_none.mp first route here)
  | some other =>
      -- two routes of one address are one route
      have same : other.arc = route.arc := by simpa using List.find?_some first
      have isOther : other ∈ registry.table.routes :=
        RouteTable.mem_routes.mpr ⟨_, List.mem_of_find?_eq_some first⟩
      by_contra different
      have distinct : other ≠ route := fun is => different (by rw [is])
      exact (held.coherent.apart.forall isOther inside distinct).arcs same

/-! ## The invariant, step by step -/

/-- The last claim on a session nobody authenticated for goes, and the session with it. -/
theorem Held.evict {registry : AcceptorRegistry} (held : registry.Held) {i : Nat} {route : Route}
    {key : CompId × CompId} (connection : registry.connections[i]? = some (.claimed route.arc route.acceptor false))
    (inside : route ∈ bucket key registry.table.buckets) (isLookedUp : route.state ≠ .registered)
    (last : route.claims = 1) :
    Held { registry.setConnection i .released with table := registry.table.evict key route.arc } := by
  obtain ⟨others, was, now⟩ := RouteTable.routes_evict inside held.coherent.apart
  have isRoute : route ∈ registry.table.routes := was.mem_iff.mpr List.mem_cons_self
  have other {r : Route} (stays : r ∈ (registry.table.evict key route.arc).routes) :
      r ∈ registry.table.routes ∧ r.arc ≠ route.arc :=
    ⟨was.mem_iff.mpr (List.mem_cons_of_mem _ (now.mem_iff.mp stays)), held.unique was (now.mem_iff.mp stays)⟩
  have whole := held.coherent.perm was
  have count := liveClaims_set connection .released
  -- no claim on the session is left
  have gone : (registry.setConnection i .released).liveClaims route.arc = 0 := by
    have here := count route.arc
    rw [← held.claims route isRoute, last] at here
    simp only [Routing.claims, beq_self_eq_true, Bool.toNat_true, Bool.toNat_false] at here
    omega
  refine ⟨held.keyed.evict key route.arc, ?_, ?_, ?_, ?_, ?_, ?_, held.past⟩
  · refine Coherent.perm ?_ now.symm
    refine ⟨(List.pairwise_cons.mp whole.apart).2, ?_, ?_, ?_, ?_⟩
    · exact fun r here => whole.patterns r (List.mem_cons_of_mem _ here)
    · exact fun r here => whole.usable r (List.mem_cons_of_mem _ here)
    · exact fun r here => whole.addresses r (List.mem_cons_of_mem _ here)
    · have counted := whole.counted
      unfold lookedUp at counted ⊢
      rw [List.countP_cons_of_pos (by simpa using isLookedUp)] at counted
      show registry.table.fromLookup - 1 = _
      omega
  · intro most isMost
    exact Nat.le_trans (Nat.sub_le _ _) (held.capped most isMost)
  · intro r stays
    obtain ⟨here, different⟩ := other stays
    have same := count r.arc
    simp only [Routing.claims, beq_eq_false_iff_ne.mpr (Ne.symm different), Bool.toNat_false] at same
    rw [held.claims r here]
    exact same.symm
  · intro j arc acceptor authenticated here
    rcases getElem?_set_cases here with ⟨_, impossible⟩ | ⟨_, old⟩
    · cases impossible
    · obtain ⟨r, isOld, rfl, rfl, facts⟩ := held.held j arc acceptor authenticated old
      rcases List.mem_cons.mp (was.mem_iff.mp isOld) with rfl | stays
      · -- its claims are all gone
        have none := List.countP_eq_zero.mp gone _ (List.mem_of_getElem? here)
        exact absurd (beq_self_eq_true r.arc) none
      · exact ⟨r, now.mem_iff.mpr stays, rfl, rfl, facts⟩
  · intro j arc acceptor here
    rcases getElem?_set_cases here with ⟨_, impossible⟩ | ⟨_, old⟩
    · cases impossible
    · exact held.vouched j arc acceptor old
  · intro r stays provisional authenticated
    obtain ⟨here, _⟩ := other stays
    obtain ⟨j, acceptor, claimed⟩ := held.pending r here provisional authenticated
    refine ⟨j, acceptor, ?_⟩
    show (registry.connections.set i .released)[j]? = _
    rw [List.getElem?_set_ne]
    · exact claimed
    · rintro rfl
      rw [connection] at claimed
      injection claimed with same
      injection same with _ _ impossible
      cases impossible

/-- A claim is released. -/
theorem Held.release {registry : AcceptorRegistry} (held : registry.Held) {i arc : Nat} {acceptor : Acceptor}
    {authenticated : Bool} (connection : registry.connections[i]? = some (.claimed arc acceptor authenticated)) :
    Held { registry.setConnection i .released with
      table := registry.table.release arc acceptor authenticated } := by
  obtain ⟨route, found, rfl, rfl, isLookedUp, claimed⟩ := held.find_claimed connection
  rcases RouteTable.release_cases authenticated found with ⟨_, rfl, last, released⟩ | ⟨stays, change, changed, released⟩
  · rw [released]
    exact held.evict connection (List.mem_of_find?_eq_some found) isLookedUp (by omega)
  · rw [released]
    obtain ⟨others, was, now⟩ := RouteTable.routes_update change found
    have isRoute : route ∈ registry.table.routes := was.mem_iff.mpr List.mem_cons_self
    have same : Same route (change route) := by
      rw [changed]
      unfold RouteTable.released
      split
      · rename_i confirmed
        refine ⟨rfl, rfl, rfl, ?_⟩
        rw [confirmed.1]
        rfl
      · exact ⟨rfl, rfl, rfl, rfl⟩
    have claims : (change route).claims = route.claims - 1 := by
      rw [changed]
      unfold RouteTable.released
      split <;> rfl
    refine held.change connection (held.keyed.update found same.pattern) rfl was now same
      isLookedUp ?_ ?_ ?_ ?_ (Nat.le_refl _)
    · intro arc different
      exact ⟨beq_eq_false_iff_ne.mpr (Ne.symm different), rfl⟩
    · simp only [Routing.claims, beq_self_eq_true, Bool.toNat_true, Bool.toNat_false]
      omega
    · intro arc acceptor vouched impossible
      cases impossible
    · intro provisional vouched
      rw [changed] at provisional
      unfold RouteTable.released at provisional
      split at provisional
      · cases provisional
      · -- still provisional, so the claim released was not the authenticated one
        rename_i unconfirmed
        obtain ⟨j, acceptor, here⟩ := held.pending route isRoute provisional vouched
        refine ⟨j, acceptor, ?_⟩
        rw [List.getElem?_set_ne]
        · exact here
        · rintro rfl
          rw [connection] at here
          cases here
          exact unconfirmed ⟨provisional, rfl⟩

theorem Held.connect {registry : AcceptorRegistry} (held : registry.Held) (identity : LogonIdentity) :
    Held { registry with connections := registry.connections ++ [.seeking identity] } := by
  have counts (arc : Nat) :
      (registry.connections ++ [Routing.seeking identity]).countP (Routing.claims arc) = registry.liveClaims arc := by
    rw [List.countP_append]
    rfl
  have old {j arc : Nat} {acceptor : Acceptor} {authenticated : Bool}
      (here : (registry.connections ++ [Routing.seeking identity])[j]? = some (.claimed arc acceptor authenticated)) :
      registry.connections[j]? = some (.claimed arc acceptor authenticated) := by
    rw [List.getElem?_append] at here
    split at here
    · exact here
    · obtain ⟨_, is⟩ := List.getElem?_eq_some_iff.mp here
      simp at is
  refine ⟨held.keyed, held.coherent, held.capped, ?_, ?_, ?_, ?_, held.past⟩
  · intro route inside
    rw [held.claims route inside]
    exact (counts route.arc).symm
  · intro j arc acceptor authenticated here
    exact held.held j arc acceptor authenticated (old here)
  · intro j arc acceptor here
    exact held.vouched j arc acceptor (old here)
  · intro route inside provisional authenticated
    obtain ⟨j, acceptor, here⟩ := held.pending route inside provisional authenticated
    refine ⟨j, acceptor, ?_⟩
    show (registry.connections ++ [Routing.seeking identity])[j]? = _
    rw [List.getElem?_append_left (List.getElem?_eq_some_iff.mp here).1]
    exact here

/-- A registered session joins, with no claim on it. -/
theorem Held.register {registry : AcceptorRegistry} (held : registry.Held) (acceptor : Acceptor) :
    (registry.register acceptor).Held := by
  unfold AcceptorRegistry.register
  split
  · exact held
  · rename_i usable
    split
    · exact held
    · rename_i routed table inserted
      rcases RouteTable.insert_cases inserted with ⟨_, impossible, _⟩ | admitted
      · cases impossible
      obtain ⟨noConflict, noShare, ⟨_, _, rfl⟩ | ⟨impossible, _⟩⟩ := RouteTable.admit_cases admitted
      · refine held.join usable noConflict noShare rfl rfl held.capped rfl rfl ?_ ?_ ?_ ?_
        · exact held.liveClaims_new.symm
        · exact fun arc _ => rfl
        · exact fun j arc a b here => .inl here
        · exact fun j arc a here => here
      · cases impossible

/-- The connection whose lookup resolved the session inserts it. -/
theorem Held.admitResolved {registry : AcceptorRegistry} (held : registry.Held) {i : Nat} {identity : LogonIdentity}
    {acceptor : Acceptor} (connection : registry.connections[i]? = some (.admitting identity acceptor)) :
    (registry.admitResolved i identity acceptor).Held := by
  have fails (error : RoutingError) : (registry.setConnection i (.failed error)).Held :=
    held.idle connection rfl rfl (Nat.le_refl _)
  unfold AcceptorRegistry.admitResolved
  dsimp only
  split
  · split
    · exact fails _
    · rename_i usable
      split
      · exact fails _
      · rename_i routed table inserted
        rcases RouteTable.insert_cases inserted with ⟨route, _, raced, settled | unsettled⟩ | admitted
        · obtain ⟨_, rfl, rfl⟩ := settled
          exact held.idle connection rfl rfl (Nat.le_succ _)
        · obtain ⟨provisional, rfl, rfl⟩ := unsettled
          exact held.takeClaim connection rfl raced provisional (Nat.le_succ _)
        · obtain ⟨noConflict, noShare, ⟨impossible, _⟩ | ⟨_, rfl, rfl, room⟩⟩ := RouteTable.admit_cases admitted
          · cases impossible
          have count := liveClaims_set connection (.claimed registry.arcs acceptor false)
          refine held.join usable noConflict noShare rfl rfl room rfl rfl ?_ ?_ ?_ ?_
          · have here := count registry.arcs
            rw [held.liveClaims_new] at here
            simp only [Routing.claims, beq_self_eq_true, Bool.toNat_true, Bool.toNat_false] at here
            exact here.symm
          · intro arc different
            have here := count arc
            simp only [Routing.claims, beq_eq_false_iff_ne.mpr (Ne.symm different), Bool.toNat_false] at here
            exact here
          · intro j arc a b here
            rcases getElem?_set_cases here with ⟨_, is⟩ | ⟨_, old⟩
            · injection is with sameArc sameAcceptor sameFlag
              exact .inr ⟨sameArc, sameAcceptor, sameFlag, by simp⟩
            · exact .inl old
          · intro j arc a here
            show (registry.connections.set i _)[j]? = _
            rw [List.getElem?_set_ne]
            · exact here
            · rintro rfl
              rw [connection] at here
              cases here
  · exact fails _

/-- `from_admin` accepts the Logon of a claim. -/
theorem Held.authenticate {registry : AcceptorRegistry} (held : registry.Held) {i arc : Nat} {acceptor : Acceptor}
    {authenticated : Bool} (connection : registry.connections[i]? = some (.claimed arc acceptor authenticated)) :
    Held { registry.setConnection i (.claimed arc acceptor true) with
      authenticated := arc :: registry.authenticated } := by
  have count := liveClaims_set connection (.claimed arc acceptor true)
  obtain ⟨route, inside, isArc, isAcceptor, isLookedUp⟩ := held.held i arc acceptor authenticated connection
  have set : (registry.connections.set i (.claimed arc acceptor true))[i]? = some (.claimed arc acceptor true) :=
    List.getElem?_set_self (List.getElem?_eq_some_iff.mp connection).1
  refine ⟨held.keyed, held.coherent, held.capped, ?_, ?_, ?_, ?_, ?_⟩
  · intro r here
    rw [held.claims r here]
    exact (Nat.add_right_cancel (count r.arc)).symm
  · intro j arc' acceptor' flag here
    rcases getElem?_set_cases here with ⟨_, is⟩ | ⟨_, old⟩
    · injection is with sameArc sameAcceptor _
      exact ⟨route, inside, isArc.trans sameArc.symm, isAcceptor.trans sameAcceptor.symm, isLookedUp⟩
    · exact held.held j arc' acceptor' flag old
  · intro j arc' acceptor' here
    rcases getElem?_set_cases here with ⟨_, is⟩ | ⟨_, old⟩
    · injection is with sameArc _ _
      rw [sameArc]
      exact List.mem_cons_self
    · exact List.mem_cons_of_mem _ (held.vouched j arc' acceptor' old)
  · intro r here provisional vouched
    rcases List.mem_cons.mp vouched with same | earlier
    · exact ⟨i, acceptor, same ▸ set⟩
    · obtain ⟨j, a, claimed⟩ := held.pending r here provisional earlier
      by_cases isHere : i = j
      · subst isHere
        rw [connection] at claimed
        injection claimed with is
        injection is with sameArc _ _
        exact ⟨i, acceptor, sameArc ▸ set⟩
      · refine ⟨j, a, ?_⟩
        show (registry.connections.set i _)[j]? = _
        rw [List.getElem?_set_ne isHere]
        exact claimed
  · intro arc' vouched
    rcases List.mem_cons.mp vouched with same | earlier
    · rw [same, ← isArc]
      exact held.coherent.addresses route inside
    · exact held.past arc' earlier

theorem unmatched_unclaimed (identity : LogonIdentity) (registry : AcceptorRegistry) :
    (registry.unmatched identity).unclaimed = true := by
  unfold unmatched
  split <;> rfl

/-- Every step keeps what holds of the registry. -/
theorem Held.step {registry after : AcceptorRegistry} (held : registry.Held) {action : RegistryAction}
    (taken : registry.step action = some after) : after.Held := by
  cases action with
  | register acceptor =>
      obtain rfl := Option.some.inj taken
      exact held.register acceptor
  | connect identity =>
      obtain rfl := Option.some.inj taken
      exact held.connect identity
  | findRead i =>
      simp only [AcceptorRegistry.step] at taken
      split at taken
      · rename_i identity connection
        split at taken
        · obtain rfl := Option.some.inj taken
          exact held.idle connection rfl (unmatched_unclaimed identity registry) (Nat.le_refl _)
        · obtain rfl := Option.some.inj taken
          exact held.idle connection rfl rfl (Nat.le_refl _)
        · obtain rfl := Option.some.inj taken
          exact held.idle connection rfl rfl (Nat.le_refl _)
      · cases taken
  | findWrite i =>
      simp only [AcceptorRegistry.step] at taken
      split at taken
      · rename_i identity connection
        split at taken
        · obtain rfl := Option.some.inj taken
          exact held.idle connection rfl (unmatched_unclaimed identity registry) (Nat.le_refl _)
        · rename_i routed table found
          obtain rfl := Option.some.inj taken
          obtain ⟨route, first, ⟨_, rfl, rfl⟩ | ⟨provisional, rfl, rfl⟩⟩ := RouteTable.findWrite_cases found
          · exact held.idle connection rfl rfl (Nat.le_refl _)
          · exact held.takeClaim connection rfl first provisional (Nat.le_refl _)
      · cases taken
  | resolve i answer =>
      simp only [AcceptorRegistry.step] at taken
      split at taken
      · rename_i identity connection
        cases answer with
        | _ =>
            obtain rfl := Option.some.inj taken
            exact held.idle connection rfl rfl (Nat.le_refl _)
      · cases taken
  | admitResolved i =>
      simp only [AcceptorRegistry.step] at taken
      split at taken
      · rename_i identity acceptor connection
        obtain rfl := Option.some.inj taken
        exact held.admitResolved connection
      · cases taken
  | authenticate i =>
      simp only [AcceptorRegistry.step] at taken
      split at taken
      · rename_i arc acceptor authenticated connection
        obtain rfl := Option.some.inj taken
        exact held.authenticate connection
      · cases taken
  | release i =>
      simp only [AcceptorRegistry.step] at taken
      split at taken
      · rename_i arc acceptor authenticated connection
        obtain rfl := Option.some.inj taken
        exact held.release connection
      · cases taken

end AcceptorRegistry

end IronFix.Engine
