/-! # A configuration to start from

The configuration file that `init` writes.  It says in so many words what holds
anyway, and shows what else can be set.
-/
namespace LineLint
namespace CommandLine
namespace Starter

/-- The lines of the file. -/
def lines : List String :=
  ["# snippet-review configuration",
   "",
   "# Rule preset: \"full\" (default), \"rules-only\", or \"minimal\"",
   "preset = \"full\"",
   "",
   "[analyzer]",
   "# Force a dialect instead of detecting it: \"csharp\", \"vbnet\", \"sql\", \"unknown\"",
   "# dialect = \"sql\"",
   "",
   "# Rule configurations",
   "# Each rule can be enabled/disabled and have its severity overridden",
   "",
   "[rules.\"CSharp.LongLine\"]",
   "enabled = true",
   "# severity = \"info\"  # Override default severity",
   "max_length = 120",
   "",
   "[rules.\"CSharp.NestedIfs\"]",
   "max_ifs = 2",
   "",
   "[rules.\"Smell.DeepNesting\"]",
   "max_depth = 3",
   "",
   "[rules.\"Smell.LongParameterList\"]",
   "max_params = 5",
   "",
   "# [rules.\"Smell.LargeStructure\"]",
   "# max_lines = 300",
   "# max_methods = 10",
   "",
   "# [rules.\"Smell.RepeatedLiteral\"]",
   "# min_lines = 3",
   "",
   "# [rules.\"Naming.NonDescriptive\"]",
   "# enabled = false"]

/-- The contents of the file. -/
def contents : String :=
  String.join (lines.map fun line => line ++ "\n")

end Starter
end CommandLine
end LineLint
