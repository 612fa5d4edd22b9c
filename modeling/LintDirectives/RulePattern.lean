import LintDirectives.GlobPattern

/-!
# Rule patterns

A pattern names a rule, a namespace of rules, or, with a star in it, every rule that it
matches as a glob.
-/

namespace LintDirectives

def wildcard : Text := "*"

def ruleMatches (rule pattern : Text) : Bool :=
  pattern == wildcard || rule == pattern || (pattern ++ ['.']).isPrefixOf rule ||
    (pattern.contains '*' && Glob.accepts pattern rule)

end LintDirectives
