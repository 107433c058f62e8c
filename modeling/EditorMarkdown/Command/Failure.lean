import EditorMarkdown.Command.Disk
import EditorMarkdown.Document.Schema

/-!
What can go wrong, and how it is told.
-/

namespace EditorMarkdown.Command

inductive Failure where
  | noInput (path : Path)
  | unsupported (path : Path)
  | configurationUnread (path : Path) (error : DiskError)
  | configurationInvalid (path : Path)
  | configurationTaken (path : Path)
  | unread (path : Path) (error : DiskError)
  | noFolder (path : Path) (error : DiskError)
  | unwritten (path : Path) (error : DiskError)
  | notDocument
  | unknownType (unknown : Document.UnknownType)
  | someFailed (count : Nat)
  deriving DecidableEq, Repr

namespace Failure

def messages : Failure → List String
  | .noInput path => ["Input path does not exist: " ++ path.text]
  | .unsupported path => ["Unsupported input file: " ++ path.text]
  | .configurationUnread path error =>
      ["Failed to read config file: " ++ path.text, error.message]
  | .configurationInvalid path => ["Failed to parse config file: " ++ path.text]
  | .configurationTaken path => ["Config file already exists: " ++ path.text]
  | .unread path error => ["Failed to read: " ++ path.text, error.message]
  | .noFolder path error => ["Failed to create directory: " ++ path.text, error.message]
  | .unwritten path error => ["Failed to write: " ++ path.text, error.message]
  | .notDocument => ["Failed to read document JSON", "Invalid tree JSON"]
  | .unknownType unknown =>
      ["Failed to convert markdown", "Conversion error: " ++ unknown.message, unknown.message]
  | .someFailed count => [toString count ++ " files failed to convert"]

def line (failure : Failure) : String := ": ".intercalate failure.messages

private def causeLines : List String → List String
  | [] => []
  | [cause] => ["", "Caused by:", "    " ++ cause]
  | causes =>
      "" :: "Caused by:" :: causes.mapIdx fun index cause => s!"    {index}: {cause}"

def report (failure : Failure) : List String :=
  match failure.messages with
  | [] => []
  | message :: causes => ("Error: " ++ message) :: causeLines causes

end Failure

end EditorMarkdown.Command
