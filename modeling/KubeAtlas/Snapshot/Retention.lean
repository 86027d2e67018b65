import KubeAtlas.Lib.Duration
import KubeAtlas.Operations.Coverage
import KubeAtlas.Store.History

/-!
# `KubeAtlas.Snapshot.Retention`: how long events are kept

`pkg/snapshot/retention.go`. The retention is a text of the
deployment: a number of days such as `7d`, or anything
`time.ParseDuration` reads. A `Retainer` drops the events that are
older. Its ticker and what it logs are left out: a sweep is one call
of `pruneOnce`.

A `time.Duration` is an `int64`, so a product of durations wraps
around.
-/

set_option autoImplicit false

namespace KubeAtlas.Snapshot

open Lib
open Lib.Duration (DurationError)
open Operations (Duration Time)
open Store (LoggedStore)

/-- The errors of `ParseRetention`. -/
inductive RetentionError where
  | days (s : String)
  | duration (s : String) (cause : DurationError)
  | negative (s : String)
  deriving DecidableEq, Repr

/-- The texts of the errors. `quote` is the `%q` verb of `fmt`,
`timeQuote` the `quote` of the `time` package. -/
def RetentionError.message (quote timeQuote : String → String) : RetentionError → String
  | .days s =>
    "invalid retention " ++ quote s ++ ": day count must be a non-negative integer"
  | .duration s cause => "invalid retention " ++ quote s ++ ": " ++ cause.message timeQuote s
  | .negative s => "invalid retention " ++ quote s ++ ": must not be negative"

end KubeAtlas.Snapshot
