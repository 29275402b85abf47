import FormRules.Decode.Record
import FormRules.Scope.FieldPaths

/-!
# Options of validation

Whether to go on after the first issue, and how deep fieldsets may be nested.
-/

namespace FormRules

structure Options where
  collectAllErrors : Bool := true
  maxDepth : Nat := defaultMaxDepth
deriving DecidableEq, Repr, Inhabited

namespace Options

def recordType : Decode.RecordType :=
  ⟨"struct ValidateOptions", ["collect_all_errors", "max_depth"]⟩

def ofJson (value : Json) : Except Decode.Fault Options := do
  let r ← Decode.Record.ofJson recordType .alone value
  r.close (Options.mk <$> r.optional "collect_all_errors" true (fun part _ ↦ Decode.boolean part)
    <*> r.optional "max_depth" defaultMaxDepth (fun part _ ↦ Decode.natural part))

def toJson (options : Options) : Json :=
  .object
    [("collect_all_errors", .boolean options.collectAllErrors),
      ("max_depth", .natural options.maxDepth)]

end Options

end FormRules
