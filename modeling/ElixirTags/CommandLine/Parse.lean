import ElixirTags.CommandLine.Switch

/-!
# Understanding a command line

Arguments are taken from left to right.  A request for help or for the version ends the reading at
once, and so does a fault.  Otherwise the switches add up to `Options`, and listings go before the
making of tags.
-/

namespace ElixirTags

/-- What the switches so far add up to. -/
structure Request where
  options : Options := {}
  listKinds : Bool := false
  listMaps : Bool := false
deriving DecidableEq, Repr

/-- The options after a switch.  The older reading of the language keeps the kinds. -/
def Options.apply (o : Options) : Switch → Options
  | .recurse => { o with recurse := true }
  | .append => { o with append := true }
  | .verbose => { o with verbose := true }
  | .unscoped => { o with scan := { o.scan with scopes := false } }
  | .allNames => { o with scan := { o.scan with lettersOnly := false } }
  | .legacy => { o with scan := { Config.legacy with kinds := o.scan.kinds } }
  | .target target => { o with target := target }
  | .sort on => { o with sort := on }
  | .identClass cls => { o with scan := { o.scan with identClass := cls } }
  | .kinds spec => { o with scan := { o.scan with kinds := spec.apply o.scan.kinds } }
  | .input path => { o with inputs := o.inputs ++ [path] }
  | .help | .version | .listKinds | .listMaps => o

namespace Request

/-- The request after a switch. -/
def apply (r : Request) (switch : Switch) : Request where
  options := r.options.apply switch
  listKinds := r.listKinds || switch == .listKinds
  listMaps := r.listMaps || switch == .listMaps

/-- The command that a whole request comes to. -/
def command (r : Request) : Except UsageFault Command :=
  if r.listMaps then .ok .listMaps
  else if r.listKinds then .ok (.listKinds r.options)
  else if r.options.inputs = [] then .error .noInputs
  else .ok (.generate r.options)

/-- The command after the switches that are left. -/
def finish (r : Request) : List (Except UsageFault Switch) → Except UsageFault Command
  | [] => r.command
  | .error fault :: _ => .error fault
  | .ok .help :: _ => .ok .help
  | .ok .version :: _ => .ok .version
  | .ok switch :: rest => (r.apply switch).finish rest

end Request

/-- The command that the arguments ask for. -/
def Command.ofArguments (arguments : List String) : Except UsageFault Command :=
  Request.finish {} (Switch.ofArguments arguments)

end ElixirTags
