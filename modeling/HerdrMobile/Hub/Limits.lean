/-!
# Rate limits of the relay

Times are nanoseconds of a monotonic clock. Subtraction on them is the
saturating `duration_since` of the source.
-/
namespace HerdrMobile.Hub.Limits

set_option autoImplicit false

def second : Nat := 1000000000

/-- The window both limiters count in. -/
def window : Nat := second

inductive IpAddr where
  | v4 (bits : BitVec 32)
  | v6 (bits : BitVec 128)
  deriving DecidableEq

/-- One list of admitted instants, oldest first, for each source address. -/
structure IpRateLimiter where
  maxPerWindow : Nat
  seen : IpAddr → List Nat

def IpRateLimiter.new (maxPerWindow : Nat) : IpRateLimiter := ⟨maxPerWindow, fun _ => []⟩

def IpRateLimiter.allow (l : IpRateLimiter) (ip : IpAddr) (now : Nat) : Bool × IpRateLimiter :=
  let events := (l.seen ip).dropWhile fun t => window ≤ now - t
  if l.maxPerWindow ≤ events.length then
    (false, { l with seen := fun a => if a = ip then events else l.seen a })
  else
    (true, { l with seen := fun a => if a = ip then events ++ [now] else l.seen a })

/-- A counter that starts over when a window has passed since it last started. -/
structure FrameRateLimiter where
  maxPerWindow : Nat
  windowStart : Nat
  count : Nat
  deriving DecidableEq

def FrameRateLimiter.new (maxPerWindow now : Nat) : FrameRateLimiter := ⟨maxPerWindow, now, 0⟩

def FrameRateLimiter.allow (l : FrameRateLimiter) (now : Nat) : Bool × FrameRateLimiter :=
  let l := if window ≤ now - l.windowStart then { l with windowStart := now, count := 0 } else l
  let l := { l with count := l.count + 1 }
  (decide (l.count ≤ l.maxPerWindow), l)

end HerdrMobile.Hub.Limits
