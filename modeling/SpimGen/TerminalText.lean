/-
Text and terminals.  Foreign text may hold control characters that steer a
terminal.  A log spells them out; a message that may be shown with emphasis is
stripped of all control sequences, its own and foreign ones, where it does not
go to a terminal.
-/

namespace SpimGen.TerminalText

/-- Text that a terminal shows with emphasis. -/
def emphasize (text : String) : String :=
  "\x1b[1m" ++ text ++ "\x1b[0m"

/-- The two hexadecimal digits of a number below 256. -/
def hexDigits (value : Nat) : List Char :=
  [Nat.digitChar (value / 16), Nat.digitChar (value % 16)]

/-- The characters below 128 that are spelled out: bell, backspace, form feed,
escape and delete. -/
def steering : List Char :=
  ['\x07', '\x08', '\x0c', '\x1b', '\x7f']

/-- Spelling of a character: one that could steer a terminal is written as its
number, and every other one as it is. -/
def spell (c : Char) : List Char :=
  if c ∈ steering then
    '\\' :: 'x' :: hexDigits c.toNat
  else if 128 ≤ c.toNat ∧ c.toNat < 160 then
    '\\' :: 'u' :: '\x7b' :: hexDigits c.toNat ++ ['\x7d']
  else
    [c]

/-- Spells out the characters of a text that could steer a terminal. -/
def spellOut (text : String) : String :=
  String.ofList (text.toList.flatMap spell)

/-- What a terminal is in the middle of. -/
inductive Mode where
  | plain
  | escape
  /-- An escape sequence with characters between its first and its last. -/
  | escapeInner
  | control
  | device
  | deviceParam
  /-- What follows the parameters of a device control string. -/
  | deviceInner
  | hidden
  | command
deriving Repr, DecidableEq

def between (low high c : Char) : Bool :=
  decide (low ≤ c) && decide (c ≤ high)

/-- The byte that ends a hidden string, also as a part of a longer character. -/
def terminator : UInt8 := 0x9c

namespace Mode

/-- What a terminal is in the middle of after a character.  Two control
characters break every sequence off, and an escape character starts a new one
everywhere. -/
def next (mode : Mode) (c : Char) : Mode :=
  if c = '\x18' ∨ c = '\x1a' then .plain
  else if c = '\x1b' then .escape
  else
    match mode with
    | .plain => .plain
    | .escape =>
        if c = '[' then .control
        else if c = ']' then .command
        else if c = 'P' then .device
        else if c = 'X' ∨ c = '^' ∨ c = '_' then .hidden
        else if between ' ' '/' c then .escapeInner
        else if between '0' '~' c then .plain
        else .escape
    | .escapeInner => if between '0' '~' c then .plain else .escapeInner
    | .control => if between '@' '~' c then .plain else .control
    | .device =>
        if between ' ' '/' c then .deviceInner
        else if between '0' '?' c then .deviceParam
        else if between '@' '~' c then .hidden
        else .device
    | .deviceParam =>
        if between ' ' '/' c then .deviceInner
        else if between '<' '~' c then .hidden
        else .deviceParam
    | .deviceInner => if between '0' '~' c then .hidden else .deviceInner
    | .hidden =>
        if terminator ∈ String.utf8EncodeChar c then .plain else .hidden
    | .command => if c = '\x07' then .plain else .command

/-- Tab, line feed, form feed and carriage return arrange text. -/
def isLayout (c : Char) : Bool :=
  c == '\t' || c == '\n' || c == '\x0c' || c == '\r'

/-- Whether a character is shown: in plain text all but control characters,
and those that arrange text also within a sequence. -/
def shows : Mode → Char → Bool
  | .plain, c => isLayout c || (decide (' ' ≤ c) && c != '\x7f')
  | .escape, c | .escapeInner, c | .control, c => isLayout c
  | _, _ => false

end Mode

/-- The characters that are shown from some mode on.  From the first one shown
on, text is shown as if it were plain.  The next control character brings the
mode back that was left, unless a character above 127 has made it plain. -/
def shown (mode : Mode) (showing : Bool) : List Char → List Char
  | [] => []
  | c :: rest =>
      if (if showing then Mode.plain else mode).shows c then
        c :: shown (if c.toNat < 128 then mode else .plain) true rest
      else
        shown (mode.next c) false rest

/-- Removes control characters and control sequences from a text. -/
def strip (text : String) : String :=
  String.ofList (shown .plain false text.toList)

end SpimGen.TerminalText
