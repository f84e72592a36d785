import ZenohFlatC.Args.Common

/-!
# The command line of `z_queryable`
-/

set_option linter.dupNamespace false

namespace ZenohFlatC.Args.Queryable

open CStr (lit)

/-- `DEFAULT_KEYEXPR`. -/
def defaultKeyexpr : CStr := lit "demo/example/zenoh-c-queryable"

/-- `DEFAULT_VALUE`. -/
def defaultValue : CStr := lit "Queryable from C!"

/-- `struct args_t`. -/
structure Args where
  keyexpr : CStr
  value : CStr
  complete : Bool
  deriving DecidableEq

/-- `parse_args`. -/
def parseArgs (api : ConfigApi) : Prog Args := do
  checkHelp
  let keyexpr ← parseArg (lit "k") (lit "key") pure defaultKeyexpr
  let value ← parseArg (lit "p") (lit "payload") pure defaultValue
  let complete ← checkFlag (lit "complete")
  parseZenohCommonArgs api
  checkNothingLeft
  pure { keyexpr, value, complete }

end ZenohFlatC.Args.Queryable
