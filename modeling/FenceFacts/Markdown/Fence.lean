import FenceFacts.Text

/-!
# FenceFacts — fences

A fence is a line that starts with three backticks.  Indented fences and
fences of tildes are not fences here.  Any fence closes an open block; one
whose info string starts with a JavaScript tag, in whatever case, opens one.
Nothing needs to separate the tag from what follows it.
-/

namespace FenceFacts

/-- How a fence names JavaScript. -/
inductive ScriptTag
  | javascript
  | js
  deriving DecidableEq, Repr

namespace ScriptTag

/-- In the order in which they are tried. -/
def all : List ScriptTag := [.javascript, .js]

protected def toString : ScriptTag → String
  | javascript => "javascript"
  | js => "js"

instance : ToString ScriptTag := ⟨ScriptTag.toString⟩

/-- The text starts with the tag, ASCII case aside. -/
def opens (tag : ScriptTag) (info : Text) : Bool :=
  tag.toString.toList.isPrefixOf (info.map Char.toLower)

/-- The tag at the start of an info string. -/
def ofInfo? (info : Text) : Option ScriptTag := all.find? fun tag => tag.opens info

end ScriptTag

/-- A fence line: what follows its backticks. -/
structure Fence where
  /-- Everything behind the backticks, line end excluded. -/
  info : Text
  /-- The JavaScript tag that the info string starts with. -/
  tag? : Option ScriptTag
  deriving DecidableEq, Repr

/-- The fence that a line is. -/
def Fence.ofLine? : Text → Option Fence
  | '\x60' :: '\x60' :: '\x60' :: rest =>
    let info := Text.withoutTerminator rest
    some ⟨info, ScriptTag.ofInfo? info⟩
  | _ => none

end FenceFacts
