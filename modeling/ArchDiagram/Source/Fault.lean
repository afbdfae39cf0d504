import ArchDiagram.Source.Lexeme

/-!
Why a source is refused. A fault is a cause, `Fault.message` its wording, and a diagnostic a fault
with the line it was found on. A failure is an operation that had no result at all, which a reader
of whole sources never meets.
-/

namespace ArchDiagram.Source

inductive LinkEnd where
  | source
  | target
  deriving DecidableEq

def LinkEnd.name : LinkEnd → String
  | source => "source"
  | target => "target"

inductive Fault where
  -- declarations
  | missingIdentifier (keyword : String)
  | invalidIdentifier (id : String)
  | missingColon (id : String)
  | missingLabel (id : String)
  | unterminatedLabel (id : String)
  | nodeOpensBlock (id : String)
  | malformedAttribute (token id : String)
  | quotedAttribute (key id : String)
  | notANumber (key id value : String)
  | invalidParent (value id : String)
  -- links
  | missingArrow
  | missingEnd (which : LinkEnd) (arrow : Arrow)
  | invalidEnd (which : LinkEnd) (id : String)
  | missingLinkLabel (source : String) (arrow : Arrow) (target : String)
  | unquotedLinkLabel (source : String) (arrow : Arrow) (target : String)
  | unterminatedLinkLabel (source : String) (arrow : Arrow) (target : String)
  | textAfterLinkLabel (text : String)
  -- titles, braces and lines as a whole
  | missingTitle
  | unterminatedTitle
  | textAfterTitle (text : String)
  | repeatedTitle (first : Int)
  | unmatchedBrace
  | unclosedBlock (container : Option String)
  | unrecognized (text : String)
  | duplicateIdentifier (id : String) (first : Int)
  -- references
  | unknownEnd (which : LinkEnd) (id : String)
  | ownParent (id : String)
  | parentIsNode (parent id : String)
  | unknownParent (parent id : String)
  | nestedInItself (id : String)
  deriving DecidableEq

def Fault.message : Fault → String
  | missingIdentifier keyword => "Missing identifier after '" ++ keyword ++ "'"
  | invalidIdentifier id =>
    "Invalid identifier '" ++ id ++ "': use letters, digits, '_' or '-' and no spaces"
  | missingColon id => "Missing ':' after identifier '" ++ id ++ "'"
  | missingLabel id => "Missing quoted label for '" ++ id ++ "'"
  | unterminatedLabel id => "Unterminated string in label for '" ++ id ++ "'"
  | nodeOpensBlock id => "Only containers can open a '\x7b' block ('" ++ id ++ "' is a node)"
  | malformedAttribute token id =>
    "Malformed attribute '" ++ token ++ "' on '" ++ id ++ "': expected key=value"
  | quotedAttribute key id =>
    "Attribute '" ++ key ++ "' on '" ++ id ++ "' must be a bare value, not a quoted string"
  | notANumber key id value =>
    "Attribute '" ++ key ++ "' on '" ++ id ++ "' must be a number, got '" ++ snippet value ++ "'"
  | invalidParent value id => "Invalid parent identifier '" ++ value ++ "' on '" ++ id ++ "'"
  | missingArrow => "Missing link operator '->' or '<->'"
  | missingEnd .source arrow => "Missing source identifier before '" ++ arrow.text ++ "'"
  | missingEnd .target arrow => "Missing target identifier after '" ++ arrow.text ++ "'"
  | invalidEnd which id => "Invalid " ++ which.name ++ " identifier '" ++ id ++ "'"
  | missingLinkLabel source arrow target =>
    "Missing label after ':' in link '" ++ source ++ " " ++ arrow.text ++ " " ++ target ++ "'"
  | unquotedLinkLabel source arrow target =>
    "Link label must be a quoted string in '" ++ source ++ " " ++ arrow.text ++ " " ++ target ++ "'"
  | unterminatedLinkLabel source arrow target =>
    "Unterminated string in label of link '" ++ source ++ " " ++ arrow.text ++ " " ++ target ++ "'"
  | textAfterLinkLabel text => "Unexpected text after link label: '" ++ text ++ "'"
  | missingTitle => "Missing quoted text after 'title'"
  | unterminatedTitle => "Unterminated string in title"
  | textAfterTitle text => "Unexpected text after title: '" ++ snippet text ++ "'"
  | repeatedTitle first => "Title already set on line " ++ toString first
  | unmatchedBrace => "Unmatched '\x7d'"
  | unclosedBlock none => "Unclosed '\x7b' block"
  | unclosedBlock (some id) => "Unclosed '\x7b' block for container '" ++ id ++ "'"
  | unrecognized text => "Unrecognized statement: '" ++ snippet text ++ "'"
  | duplicateIdentifier id first =>
    "Duplicate identifier '" ++ id ++ "' (first declared on line " ++ toString first ++ ")"
  | unknownEnd which id => "Unknown identifier '" ++ id ++ "' in link " ++ which.name
  | ownParent id => "'" ++ id ++ "' cannot be its own parent"
  | parentIsNode parent id =>
    "Parent '" ++ parent ++ "' of '" ++ id ++ "' is a node, not a container"
  | unknownParent parent id => "Unknown parent container '" ++ parent ++ "' for '" ++ id ++ "'"
  | nestedInItself id => "Container '" ++ id ++ "' is nested inside itself"

structure Diagnostic where
  line : Int
  fault : Fault
  deriving DecidableEq

/-- Operations without a result: a declaration without a first word, a number that cannot be read, a
line after the end. -/
inductive Failure where
  | noKeyword
  | unreadableNumber (text : String)
  | alreadyFinished
  deriving DecidableEq

def Failure.message : Failure → String
  | noKeyword => "list index out of range"
  | unreadableNumber text => "could not convert string to float: '" ++ text ++ "'"
  | alreadyFinished => "DocumentScanner already finished"

/-- How the reading of a statement ends early. -/
inductive Stop where
  | rejected (fault : Fault)
  | failed (failure : Failure)
  deriving DecidableEq

end ArchDiagram.Source
