import Switchboard.Service.Settings
import Switchboard.Session.Connection

/-!
# Service/Watch — the two watches over a connection

A heartbeat watch counts the intervals that pass without a heartbeat and gives a connection up after
too many in a row; a heartbeat starts the count and the interval over.  A watch over authentication
looks at the state of the authentication whenever it was set, and gives the connection up when it is
denied or when the time for it is over.  Both are values; the time is given to them.
-/

namespace Switchboard

/-- A watch for heartbeats. -/
structure HeartbeatWatch where
  /-- How many intervals in a row passed without a heartbeat. -/
  misses : Nat
  /-- When the current interval ends. -/
  due : Nat
deriving Repr, DecidableEq

namespace HeartbeatWatch

/-- A watch that begins now, or begins over because there was a heartbeat now. -/
def start (rule : HeartbeatRule) (now : Nat) : HeartbeatWatch := ⟨0, now + rule.interval⟩

/-- The interval ends without a heartbeat: the watch goes on, or there were too many. -/
def miss? (rule : HeartbeatRule) (w : HeartbeatWatch) : Option HeartbeatWatch :=
  if rule.maxMisses ≤ w.misses + 1 then none else some ⟨w.misses + 1, w.due + rule.interval⟩

/-- A miss leaves less to come. -/
theorem misses_lt_of_miss? {rule : HeartbeatRule} {w w' : HeartbeatWatch}
    (h : w.miss? rule = some w') : rule.maxMisses - w'.misses < rule.maxMisses - w.misses := by
  unfold miss? at h
  split at h
  · contradiction
  · cases h
    simp only
    omega

/-- **Lets time pass without a heartbeat**: the watch at that time, or when it gave the connection
up. -/
def pass (rule : HeartbeatRule) (now : Nat) (w : HeartbeatWatch) : Except Nat HeartbeatWatch :=
  if now < w.due then .ok w
  else
    match h : w.miss? rule with
    | none => .error w.due
    | some w' =>
      have := misses_lt_of_miss? h
      pass rule now w'
termination_by rule.maxMisses - w.misses

end HeartbeatWatch

/-- A watch over the authentication of a connection. -/
structure AuthWatch where
  /-- When the time for it is over. -/
  deadline : Nat
deriving Repr, DecidableEq

/-- What a watch over authentication comes to. -/
inductive Verdict where
  /-- The watch goes on. -/
  | undecided
  /-- The peer passed and is watched no more. -/
  | passed
  /-- The peer was denied, or had its time. -/
  | rejected
deriving Repr, DecidableEq

namespace AuthWatch

/-- A watch that begins now. -/
def start (rule : AuthRule) (now : Nat) : AuthWatch := ⟨now + rule.patience⟩

/-- What a state of the authentication comes to. -/
def judge : AuthState → Verdict
  | .pending => .undecided
  | .passed => .passed
  | .denied => .rejected

/-- **Looks at the authentication**: a decision counts as long as the time is not over. -/
def look (now : Nat) (state : AuthState) (w : AuthWatch) : Verdict :=
  match judge state with
  | .undecided => if w.deadline ≤ now then .rejected else .undecided
  | v => v

end AuthWatch

end Switchboard
