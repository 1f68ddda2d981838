import IronFix.Engine.Routes
import IronFix.Lib.Buckets
import IronFix.Lib.Transitions

/-!
# The acceptor registry

One listener, many sessions. Sessions are registered, or admitted by a lookup
and held provisionally while their first handshakes run, each under a claim.
Every critical section of the registry's lock is one step; connections and
registrations interleave between them.
-/

namespace IronFix.Engine

open Lib.Bucketed Lib.Decimal

/-! ## Sessions -/

structure SessionId where
  beginString : Bytes
  senderCompId : Bytes
  targetCompId : Bytes
  senderSubId : Option Bytes
  targetSubId : Option Bytes
  deriving DecidableEq

def SessionId.text (id : SessionId) : String :=
  s!"{asciiText id.beginString}:{asciiText id.senderCompId}->{asciiText id.targetCompId}"

def sessionIdFromConfig (config : SessionConfig) : SessionId where
  beginString := config.beginString
  senderCompId := config.senderCompId.value
  targetCompId := config.targetCompId.value
  senderSubId := config.senderSubId
  targetSubId := config.targetSubId

/-- What routing ends with when it fails. -/
inductive RoutingError where
  | config (error : SessionConfigError)
  | unsupportedVersion (version detail : String)
  | configuration (reason : String)
  | sessionLimit (maxSessions : Nat)
  | unknownSession (identity : LogonIdentity)
  | lookup (reason : String)
  | logonTimeout

/-- The acceptor of one session: its store is known by its address. -/
structure Acceptor where
  config : SessionConfig
  /-- What keeps its version from being framed. -/
  version : Option (String × String)
  store : Option Nat

namespace Acceptor

def sessionId (acceptor : Acceptor) : SessionId := sessionIdFromConfig acceptor.config

def preflight (acceptor : Acceptor) : Except RoutingError Unit :=
  match acceptor.config.validate with
  | .error error => .error (.config error)
  | .ok () =>
    match acceptor.version with
    | some (version, detail) => .error (.unsupportedVersion version detail)
    | none => .ok ()

end Acceptor

/-! ## Routes -/

inductive RouteState where
  | registered
  /-- Admitted by the lookup, and no handshake has got past `from_admin`. -/
  | provisional
  | confirmed
  deriving DecidableEq, Repr

structure Route where
  pattern : RoutePattern
  /-- The shared acceptor, by its address. -/
  arc : Nat
  acceptor : Acceptor
  state : RouteState
  claims : Nat

structure RouteTable where
  buckets : Buckets (CompId × CompId) Route
  /-- Lookup-admitted sessions, provisional or confirmed. -/
  fromLookup : Nat

inductive Origin where
  | registered
  | lookup
  deriving DecidableEq, Repr

/-- The session a Logon was routed to. -/
inductive Routed where
  | kept (arc : Nat)
  /-- With this connection's claim on it. -/
  | provisional (arc : Nat) (acceptor : Acceptor)

namespace RouteTable

def new : RouteTable := ⟨∅, 0⟩

def routes (table : RouteTable) : List Route := all table.buckets

/-- Changes the first route of a bucket that fits. -/
def update (key : CompId × CompId) (fits : Route → Bool) (change : Route → Route) (table : RouteTable) :
    RouteTable :=
  { table with
    buckets := table.buckets.insert key (updateFirst fits change (bucket key table.buckets)) }

def claim (claims : Nat) (route : Route) : Route := { route with claims }

/-- How `find` ends under the read lock. -/
inductive Found where
  | unknown
  | kept (arc : Nat)
  | claimable

def keyOf (identity : LogonIdentity) : CompId × CompId := (identity.senderCompId, identity.targetCompId)

def findRead (identity : LogonIdentity) (table : RouteTable) : Found :=
  match (bucket (keyOf identity) table.buckets).find? fun route => route.pattern.admits identity with
  | none => .unknown
  | some route => if route.state ≠ .provisional then .kept route.arc else .claimable

/-- `find` under the write lock. -/
def findWrite (identity : LogonIdentity) (table : RouteTable) : Option (Routed × RouteTable) :=
  match (bucket (keyOf identity) table.buckets).find? fun route => route.pattern.admits identity with
  | none => none
  | some route =>
    if route.state ≠ .provisional then some (.kept route.arc, table)
    else
      (checkedAdd usizeMax route.claims 1).map fun claims =>
        (.provisional route.arc route.acceptor,
          table.update (keyOf identity) (fun route => route.pattern.admits identity) (claim claims))

def overlapError (pattern : RoutePattern) (acceptor : Acceptor) (route : Route) : RoutingError :=
  .configuration s!"session {acceptor.sessionId.text} (routed by {pattern.text}) overlaps the session {route.acceptor.sessionId.text} (routed by {route.pattern.text}): a Logon could match both"

/-- The first route of the bucket the session cannot stand beside. -/
def conflict (pattern : RoutePattern) (acceptor : Acceptor) (routes : List Route) : Option RoutingError :=
  routes.findSome? fun route =>
    if route.pattern.overlaps pattern then some (overlapError pattern acceptor route)
    else if route.acceptor.sessionId = acceptor.sessionId then
      some (.configuration s!"session {acceptor.sessionId.text} is already in the registry")
    else none

def sharesStore (acceptor : Acceptor) (table : RouteTable) : Option RoutingError :=
  if acceptor.store.isSome then
    (table.routes.find? fun route => route.acceptor.store == acceptor.store).map fun route =>
      .configuration s!"session {acceptor.sessionId.text} uses the store of the session {route.acceptor.sessionId.text}: a store belongs to exactly one session"
  else none

/-- Adds the route, its acceptor at a new address. -/
def push (arc : Nat) (pattern : RoutePattern) (acceptor : Acceptor) (state : RouteState) (claims : Nat)
    (table : RouteTable) : RouteTable :=
  { table with
    buckets := table.buckets.insert pattern.compIds
      (bucket pattern.compIds table.buckets ++ [⟨pattern, arc, acceptor, state, claims⟩]) }

/-- `insert`, once no route of the same pattern is kept instead. -/
def admitNew (arc : Nat) (pattern : RoutePattern) (acceptor : Acceptor) (origin : Origin)
    (maxSessions : Option Nat) (table : RouteTable) : Except RoutingError (Routed × RouteTable) :=
  match conflict pattern acceptor (bucket pattern.compIds table.buckets), table.sharesStore acceptor with
  | some error, _ => .error error
  | none, some error => .error error
  | none, none =>
    match origin with
    | .registered => .ok (.kept arc, table.push arc pattern acceptor .registered 0)
    | .lookup =>
      match maxSessions.filter fun maxSessions => maxSessions ≤ table.fromLookup with
      | some maxSessions => .error (.sessionLimit maxSessions)
      | none =>
        match checkedAdd usizeMax table.fromLookup 1 with
        | none => .error (.sessionLimit usizeMax)
        | some fromLookup =>
          .ok (.provisional arc acceptor,
            { table.push arc pattern acceptor .provisional 1 with fromLookup })

def insert (arc : Nat) (pattern : RoutePattern) (acceptor : Acceptor) (origin : Origin)
    (maxSessions : Option Nat) (table : RouteTable) : Except RoutingError (Routed × RouteTable) :=
  let raced :=
    if origin = .lookup then
      (bucket pattern.compIds table.buckets).find? fun route => route.pattern == pattern
    else none
  match raced with
  -- a lookup that raced this one admitted the same session
  | some route =>
    if route.state ≠ .provisional then .ok (.kept route.arc, table)
    else
      match checkedAdd usizeMax route.claims 1 with
      | none => .error (.sessionLimit usizeMax)
      | some claims =>
        .ok (.provisional route.arc route.acceptor,
          table.update pattern.compIds (fun route => route.pattern == pattern) (claim claims))
  | none => table.admitNew arc pattern acceptor origin maxSessions

/-- Evicts the session and, with the last of a bucket, the bucket. -/
def evict (key : CompId × CompId) (arc : Nat) (table : RouteTable) : RouteTable where
  buckets :=
    let rest := (bucket key table.buckets).filter fun route => route.arc != arc
    if rest.isEmpty then table.buckets.erase key else table.buckets.insert key rest
  fromLookup := table.fromLookup - 1

/-- Releases one claim when its handshake ends. -/
def release (arc : Nat) (acceptor : Acceptor) (authenticated : Bool) (table : RouteTable) : RouteTable :=
  let key := (acceptor.config.targetCompId, acceptor.config.senderCompId)
  match (bucket key table.buckets).find? fun route => route.arc == arc with
  | none => table
  | some route =>
    let uncounted := table.update key (fun route => route.arc == arc) (claim (route.claims - 1))
    if route.state ≠ .provisional then uncounted
    else if authenticated then
      table.update key (fun route => route.arc == arc) fun route =>
        { claim (route.claims - 1) route with state := .confirmed }
    else if 0 < route.claims - 1 then uncounted
    else table.evict key arc

end RouteTable

/-! ## Connections -/

/-- What a lookup answers, within the logon timeout or not. -/
inductive LookupAnswer where
  | overran
  | failed (reason : String)
  | refused
  | found (acceptor : Acceptor)

/-- How far the routing of a connection is. -/
inductive Routing where
  /-- About to look under the read lock. -/
  | seeking (identity : LogonIdentity)
  /-- Found a provisional session; about to look under the write lock. -/
  | claiming (identity : LogonIdentity)
  | resolving (identity : LogonIdentity)
  /-- The lookup resolved the session; about to insert it. -/
  | admitting (identity : LogonIdentity) (acceptor : Acceptor)
  | kept (arc : Nat)
  /-- Its handshake runs under a claim. -/
  | claimed (arc : Nat) (acceptor : Acceptor) (authenticated : Bool)
  | released
  | failed (error : RoutingError)

/-- The registry and the connections it serves. -/
structure AcceptorRegistry where
  table : RouteTable
  /-- A lookup is set. -/
  lookup : Bool
  maxSessions : Option Nat
  /-- The addresses given out so far. -/
  arcs : Nat
  connections : List Routing
  /-- The acceptors for which some claim was authenticated. -/
  authenticated : List Nat

inductive RegistryAction where
  | register (acceptor : Acceptor)
  /-- An intact Logon claims `identity`. -/
  | connect (identity : LogonIdentity)
  | findRead (connection : Nat)
  | findWrite (connection : Nat)
  | resolve (connection : Nat) (answer : LookupAnswer)
  | admitResolved (connection : Nat)
  /-- `from_admin` accepts the Logon of a connection that holds a claim. -/
  | authenticate (connection : Nat)
  | release (connection : Nat)

namespace AcceptorRegistry

def new (lookup : Bool) (maxSessions : Option Nat) : AcceptorRegistry :=
  ⟨.new, lookup, maxSessions, 0, [], []⟩

def setConnection (i : Nat) (routing : Routing) (registry : AcceptorRegistry) : AcceptorRegistry :=
  { registry with connections := registry.connections.set i routing }

def ofRouted : Routed → Routing
  | .kept arc => .kept arc
  | .provisional arc acceptor => .claimed arc acceptor false

/-- No session matches: the lookup is asked, if there is one. -/
def unmatched (identity : LogonIdentity) (registry : AcceptorRegistry) : Routing :=
  if registry.lookup then .resolving identity else .failed (.unknownSession identity)

def mismatchError (pattern : RoutePattern) (acceptor : Acceptor) (identity : LogonIdentity) : RoutingError :=
  .configuration s!"the session lookup returned session {acceptor.sessionId.text} (routed by {pattern.text}) for a Logon claiming {identity.text}"

/-- `admit_resolved`. -/
def admitResolved (i : Nat) (identity : LogonIdentity) (acceptor : Acceptor) (registry : AcceptorRegistry) :
    AcceptorRegistry :=
  let pattern := RoutePattern.forSession acceptor.config
  if pattern.admits identity then
    match acceptor.preflight with
    | .error error => registry.setConnection i (.failed error)
    | .ok () =>
      match registry.table.insert registry.arcs pattern acceptor .lookup registry.maxSessions with
      | .error error => registry.setConnection i (.failed error)
      | .ok (routed, table) =>
        { registry.setConnection i (ofRouted routed) with
          table
          arcs := registry.arcs + 1 }
  else registry.setConnection i (.failed (mismatchError pattern acceptor identity))

def register (acceptor : Acceptor) (registry : AcceptorRegistry) : AcceptorRegistry :=
  match acceptor.preflight with
  | .error _ => registry
  | .ok () =>
    match registry.table.insert registry.arcs (.forSession acceptor.config) acceptor .registered
        registry.maxSessions with
    | .error _ => registry
    | .ok (_, table) =>
      { registry with
        table
        arcs := registry.arcs + 1 }

/-- The next state, unless the action cannot be taken. -/
def step (registry : AcceptorRegistry) : RegistryAction → Option AcceptorRegistry
  | .register acceptor => some (registry.register acceptor)
  | .connect identity =>
    some { registry with connections := registry.connections ++ [.seeking identity] }
  | .findRead i =>
    match registry.connections[i]? with
    | some (.seeking identity) =>
      match registry.table.findRead identity with
      | .unknown => some (registry.setConnection i (registry.unmatched identity))
      | .kept arc => some (registry.setConnection i (.kept arc))
      | .claimable => some (registry.setConnection i (.claiming identity))
    | _ => none
  | .findWrite i =>
    match registry.connections[i]? with
    | some (.claiming identity) =>
      match registry.table.findWrite identity with
      | none => some (registry.setConnection i (registry.unmatched identity))
      | some (routed, table) => some { registry.setConnection i (ofRouted routed) with table }
    | _ => none
  | .resolve i answer =>
    match registry.connections[i]? with
    | some (.resolving identity) =>
      match answer with
      | .overran => some (registry.setConnection i (.failed .logonTimeout))
      | .failed reason => some (registry.setConnection i (.failed (.lookup reason)))
      | .refused => some (registry.setConnection i (.failed (.unknownSession identity)))
      | .found acceptor => some (registry.setConnection i (.admitting identity acceptor))
    | _ => none
  | .admitResolved i =>
    match registry.connections[i]? with
    | some (.admitting identity acceptor) => some (registry.admitResolved i identity acceptor)
    | _ => none
  | .authenticate i =>
    match registry.connections[i]? with
    | some (.claimed arc acceptor _) =>
      some { registry.setConnection i (.claimed arc acceptor true) with
        authenticated := arc :: registry.authenticated }
    | _ => none
  | .release i =>
    match registry.connections[i]? with
    | some (.claimed arc acceptor authenticated) =>
      some { registry.setConnection i .released with
        table := registry.table.release arc acceptor authenticated }
    | _ => none

end AcceptorRegistry

end IronFix.Engine
