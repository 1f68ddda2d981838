import IronFix.Fixp.Types

/-!
# FIXP configuration and the request clock

Instants and durations are nanoseconds. A configuration is built by
`FixpConfigBuilder.build` only, which checks every setting.
-/

namespace IronFix.Fixp

open Lib.Decimal

def nanosPerMilli : Nat := 1000000

def fromMillis (millis : Nat) : Nat := millis * nanosPerMilli

/-- `NonZeroU32` and its kin: from 1 to `max`. -/
structure NonZero (max : Nat) where
  get : Nat
  positive : 0 < get
  fits : get ≤ max
  deriving DecidableEq

def MAX_TIMER : Nat := fromMillis u32Max

/-- What a requester does when its RetransmitRequest stalls. -/
inductive RetransmitStallPolicy where
  | eventOnly
  | terminate
  | reRequestAfterContextSwitch
  | reRequestAfterBatch
  deriving DecidableEq, Repr

inductive FixpConfigError where
  | invalidKeepalive (setting : String) (interval : Nat)
  | emptyPeerKeepaliveRange (min max : Nat)
  | zeroTimeout (setting : String)
  | timerTooLong (setting : String) (duration max : Nat)
  deriving DecidableEq, Repr

structure FixpConfigBuilder where
  keepaliveInterval : Nat
  minPeerKeepalive : Nat
  maxPeerKeepalive : Nat
  peerSilenceGrace : Option Nat
  maxRetransmitCount : NonZero u32Max
  maxPendingGaps : NonZero usizeMax
  maxGapLen : NonZero u64Max
  retransmitTimeout : Nat
  retransmitStallPolicy : RetransmitStallPolicy
  handshakeTimeout : Nat

/-- A checked configuration: the keepalive it announces is the one it keeps to. -/
structure FixpConfig extends FixpConfigBuilder where
  keepaliveMillis : UInt32
  announced : keepaliveInterval = fromMillis keepaliveMillis.toNat

/-- The setting in milliseconds, as it goes on the wire. -/
def validateKeepalive (setting : String) (interval : Nat) :
    Except FixpConfigError {millis : UInt32 // interval = fromMillis millis.toNat} :=
  if valid : fromMillis 1 ≤ interval ∧ interval ≤ MAX_TIMER ∧
      interval % nanosPerMilli = 0 then
    .ok ⟨UInt32.ofNat (interval / nanosPerMilli), by
      obtain ⟨-, small, whole⟩ := valid
      have fits : interval / nanosPerMilli < 2 ^ 32 := by
        simp only [MAX_TIMER, fromMillis, u32Max, nanosPerMilli] at small ⊢
        omega
      rw [UInt32.toNat_ofNat_of_lt' fits]
      simp only [fromMillis, nanosPerMilli] at whole ⊢
      omega⟩
  else .error (.invalidKeepalive setting interval)

def validateUpperBound (setting : String) (duration : Nat) : Except FixpConfigError Unit :=
  if duration > MAX_TIMER then .error (.timerTooLong setting duration MAX_TIMER) else .ok ()

def validateTimeout (setting : String) (timeout : Nat) : Except FixpConfigError Unit :=
  if timeout = 0 then .error (.zeroTimeout setting) else validateUpperBound setting timeout

def validateGrace : Option Nat → Except FixpConfigError Unit
  | none => .ok ()
  | some grace => validateUpperBound "peer_silence_grace" grace

def FixpConfigBuilder.build (config : FixpConfigBuilder) : Except FixpConfigError FixpConfig := do
  let millis ← validateKeepalive "keepalive_interval" config.keepaliveInterval
  let _ ← validateKeepalive "min_peer_keepalive" config.minPeerKeepalive
  let _ ← validateKeepalive "max_peer_keepalive" config.maxPeerKeepalive
  if config.minPeerKeepalive > config.maxPeerKeepalive then
    .error (.emptyPeerKeepaliveRange config.minPeerKeepalive config.maxPeerKeepalive)
  else
    validateGrace config.peerSilenceGrace
    validateTimeout "retransmit_timeout" config.retransmitTimeout
    validateTimeout "handshake_timeout" config.handshakeTimeout
    .ok ⟨config, millis.1, millis.2⟩

namespace FixpConfig

/-- The settings of `FixpConfig::default`. -/
def default : FixpConfig :=
  { keepaliveInterval := fromMillis 5000
    keepaliveMillis := 5000
    announced := rfl
    minPeerKeepalive := fromMillis 100
    maxPeerKeepalive := fromMillis 3600000
    peerSilenceGrace := none
    maxRetransmitCount := ⟨1000, by decide, by decide⟩
    maxPendingGaps := ⟨256, by decide, by decide⟩
    maxGapLen := ⟨1000000, by decide, by decide⟩
    retransmitTimeout := fromMillis 10000
    retransmitStallPolicy := .reRequestAfterContextSwitch
    handshakeTimeout := fromMillis 10000 }

def acceptsPeerKeepalive (config : FixpConfig) (millis : UInt32) : Bool :=
  let interval := fromMillis millis.toNat
  config.minPeerKeepalive ≤ interval && interval ≤ config.maxPeerKeepalive

end FixpConfig

/-- An instant paired with the wall-clock time it was taken at. -/
structure ClockAnchor where
  instant : Nat
  wall : Nat
  deriving DecidableEq, Repr

/-- The wall-clock time of `now`, unless it leaves the 64-bit range. -/
def ClockAnchor.nanotimeAt (anchor : ClockAnchor) (now : Nat) : Option Nat :=
  if anchor.instant ≤ now then
    if now - anchor.instant ≤ u64Max then checkedAdd u64Max anchor.wall (now - anchor.instant)
    else none
  else if anchor.instant - now ≤ u64Max ∧ anchor.instant - now ≤ anchor.wall then
    some (anchor.wall - (anchor.instant - now))
  else none

/-- Issues strictly increasing request timestamps. -/
structure RequestClock where
  anchor : ClockAnchor
  last : Option Nat
  deriving DecidableEq, Repr

def RequestClock.new (anchor : ClockAnchor) : RequestClock := ⟨anchor, none⟩

/-- The timestamp to issue when the derived time is `derived`. -/
def RequestClock.issued (clock : RequestClock) (derived : Nat) : Option Nat :=
  match clock.last with
  | some last => if derived ≤ last then checkedAdd u64Max last 1 else some derived
  | none => some derived

/-- A request timestamp for `now`, greater than every one issued before; none out of range. -/
def RequestClock.next (clock : RequestClock) (now : Nat) : Option (Nanotime × RequestClock) :=
  match clock.anchor.nanotimeAt now with
  | none => none
  | some derived =>
    match clock.issued derived with
    | none => none
    | some nanos => some (⟨UInt64.ofNat nanos⟩, { clock with last := some nanos })

end IronFix.Fixp
