import VideoGateway.Http.Message

/-!
# Trying downloads again

Which outcomes of a call may pass by themselves, and how long to wait before the
next attempt: the delay doubles up to five times.
-/
namespace VideoGateway.Http

/-- How often a download is tried again, and the delay before the second
attempt in milliseconds. -/
structure RetryPolicy where
  maxRetries : Nat
  baseDelay : Nat
deriving DecidableEq, Repr

/-- The statuses that may pass by themselves. -/
def Status.isTransient (s : Status) : Bool :=
  [tooManyRequests, internalServerError, badGateway, serviceUnavailable, gatewayTimeout].contains s

def SendFailure.isTransient : SendFailure → Bool
  | .timedOut | .disconnected => true
  | .unsendable | .redirectedTooOften => false

/-- Whether the outcome of a call may be different the next time. -/
def isTransient : Reply → Bool
  | .ok response => response.status.isTransient
  | .error failure => failure.isTransient

namespace RetryPolicy

def maxDoublings : Nat := 5

def longestDelay : Nat := Word.greatest64

/-- The delay after an attempt, of which the first one has the number 0. -/
def delay (p : RetryPolicy) (attempt : Nat) : Nat :=
  min (p.baseDelay <<< min attempt maxDoublings) longestDelay

end RetryPolicy

end VideoGateway.Http
