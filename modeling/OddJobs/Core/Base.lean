import OddJobs.Library.Map

/-!
# Maps, clocks and scoped names

The hash maps of the daemon are keyed by strings.  The order in which one of
them is walked is unspecified in the source: it is an arbitrary permutation of
the keys.
-/

namespace OddJobs

abbrev HashMap (V : Type) := Std.ExtTreeMap String V

abbrev PathBuf := String
abbrev JobId := String
abbrev AgentId := String
abbrev AgentRunId := String
abbrev SessionId := String
abbrev WorkspaceId := String
abbrev DecisionId := String
abbrev TimerId := String

abbrev WalkOrder := Library.WalkOrder String

/-- The number of values of a `u64`. -/
def U64_VALUES : Nat := 18446744073709551616

/-- The readings of `SystemTime::now` (epoch milliseconds) and `Instant::now`
that one application of an event sees. -/
structure Clock where
  epochMs : Nat
  instant : Nat
  deriving DecidableEq, Repr, Inhabited

/-- Build a namespace-scoped key from namespace and name: the bare name when
the namespace is empty, otherwise `ns/name`. -/
def scopedName (ns name : String) : String :=
  if ns = "" then name else ns ++ "/" ++ name

def afterLastSlash (text : String) : String :=
  String.ofList (text.toList.reverse.takeWhile (· != '/')).reverse

end OddJobs
