/-
**The command line**: one script, given as text or as the name of a file.

* `Request.ofArguments`: what the arguments ask for; they are read from left to right, and the
  first that cannot be right, or that asks for a text about the program, settles the matter.
* `Request.respond`: exit code, output and error text of a request.
-/

import Scriptlet.Script

namespace Scriptlet

/-- **What the arguments ask for.** -/
inductive Request where
  /-- Run the given text. -/
  | runText (source : String)
  /-- Run the text in the given file. -/
  | runFile (path : String)
  /-- Print the version. -/
  | version
  /-- Print the usage. -/
  | help
  /-- The arguments make no sense. -/
  | invalid
  deriving DecidableEq

/-- The arguments read so far. -/
structure Arguments where
  /-- Whether the contents are the name of a file. -/
  file : Bool
  /-- The script or its file. -/
  contents : Option String

/-- Whether reading goes on, or what is asked for is known. -/
abbrev Reading := Except Request Arguments

namespace Arguments

/-- No arguments yet. -/
def empty : Arguments := ⟨false, none⟩

/-- The flag for a file may be given once. -/
def withFile (arguments : Arguments) : Reading :=
  if arguments.file then .error .invalid else .ok { arguments with file := true }

/-- There is one script. -/
def withContents (arguments : Arguments) (contents : String) : Reading :=
  match arguments.contents with
  | some _ => .error .invalid
  | none => .ok { arguments with contents := some contents }

/-- A flag of one letter. -/
def withLetter (arguments : Arguments) : Char → Reading
  | 'f' => arguments.withFile
  | 'V' => .error .version
  | 'h' => .error .help
  | _ => .error .invalid

/-- A flag of one word. -/
def withWord (arguments : Arguments) (word : String) : Reading :=
  if word = "file" then arguments.withFile
  else if word = "version" then .error .version
  else if word = "help" then .error .help
  else .error .invalid

/-- An argument that may be a flag: a word behind two dashes, letters behind one dash; a dash alone
is a script. -/
def withArgument (arguments : Arguments) (argument : String) : Reading :=
  match argument.toList with
  | '-' :: '-' :: word => arguments.withWord (String.ofList word)
  | '-' :: letter :: letters => (letter :: letters).foldlM withLetter arguments
  | _ => arguments.withContents argument

/-- All arguments from left to right; behind two dashes alone there are no flags. -/
def withAll (arguments : Arguments) : List String → Reading
  | [] => .ok arguments
  | argument :: rest =>
    if argument = "--" then rest.foldlM withContents arguments
    else do (← arguments.withArgument argument).withAll rest

/-- The request of complete arguments. -/
def request (arguments : Arguments) : Request :=
  match arguments.contents with
  | none => .invalid
  | some contents => if arguments.file then .runFile contents else .runText contents

end Arguments

/-- The name and the version of the program. -/
def versionText : String := "rubyish 0.1.0\n"

/-- How the program is used. -/
def usageText : String := "Usage: rubyish [OPTIONS] <CONTENTS>\n"

/-- **What a command line answers.** -/
structure Response where
  exitCode : UInt32
  output : Array UInt8
  errorText : String

namespace Request

/-- **What the arguments ask for.** -/
def ofArguments (arguments : List String) : Request :=
  match Arguments.empty.withAll arguments with
  | .ok complete => complete.request
  | .error request => request

/-- The file that a request needs. -/
def path? : Request → Option String
  | runFile path => some path
  | _ => none

/-- The answer of a script that ran. -/
def scriptResponse (fuel : Nat) (source : String) : Option Response :=
  match runScript fuel source .unlimited with
  | .finished sink none => some ⟨0, sink.written, ""⟩
  | .finished sink (some error) => some ⟨1, sink.written, error.message ++ "\n"⟩
  | .exhausted => none

/-- The answer when a file is missing or holds no text. -/
def unreadable (path : String) : Response :=
  ⟨1, #[], "Failed to read the input file '" ++ path ++
    "'. Perhaps this file does not exist?\n"⟩

/-- **The answer of a request**, given the contents of files; `none` if the fuel is used up. -/
def respond (fuel : Nat) (files : String → Option ByteArray) : Request → Option Response
  | runText source => scriptResponse fuel source
  | runFile path =>
    match (files path).bind String.fromUTF8? with
    | some source => scriptResponse fuel source
    | none => some (unreadable path)
  | version => some ⟨0, versionText.toUTF8.data, ""⟩
  | help => some ⟨0, usageText.toUTF8.data, ""⟩
  | invalid => some ⟨2, #[], usageText⟩

end Request

end Scriptlet
