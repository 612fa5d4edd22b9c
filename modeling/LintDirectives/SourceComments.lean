import LintDirectives.CommentReading
import LintDirectives.GoComments
import LintDirectives.PythonComments
import LintDirectives.ScriptComments
import LintDirectives.SourceLanguage

/-!
# Comments of a file

The comments of a file are found by the rules of its language.
-/

namespace LintDirectives

/-- How the ranges of comments are found in a file. -/
abbrev CommentFinder := Language → Text → Bytes → List Span

/-- The dialect of a TypeScript file: only one kind of file has elements. -/
def typescriptDialect (path : Text) : Script.Dialect :=
  { elements := ".tsx".toList.isSuffixOf path, types := true }

def commentSpans (language : Language) (path : Text) (source : Bytes) : List Span :=
  match language with
  | .python => PythonComments.spans source
  | .go => GoComments.spans source
  | .javascript => Script.commentSpans { elements := true, types := false } source
  | .typescript => Script.commentSpans (typescriptDialect path) source

/-- The directive comments of a file, in the ranges in which a finder sees comments. -/
def directiveComments (find : CommentFinder) (language : Language) (path : Text)
    (source : Bytes) : Except UndecodableComment (List DirectiveComment) :=
  DirectiveComment.ofSpans language.hasDocComments path source (find language path source)

end LintDirectives
