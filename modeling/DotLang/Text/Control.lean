/-!
# Control characters and sequences

A terminal takes some characters of a text as orders: control characters, and the sequences that an escape
character opens. `visible` keeps the characters that are to be seen, so that a text may be written where
there is no terminal. Tabs and line ends are kept. One of them inside a sequence interrupts it: the
characters behind it are seen, up to the next control character, from where the sequence goes on.
-/

namespace DotLang.Text

/-- Where in a control sequence a terminal is. -/
inductive ControlState where
  /-- Outside of sequences. -/
  | outside
  /-- Behind an escape character. -/
  | escape
  /-- Behind an escape character and others that qualify it. -/
  | qualified
  /-- In the parameters of a control function. -/
  | parameters
  /-- In a command to the system. -/
  | command
  /-- At the start of a string for a device. -/
  | device
  /-- In the parameters of a string for a device. -/
  | deviceParameters
  /-- Behind characters that qualify a string for a device. -/
  | deviceQualified
  /-- In the content of a string. -/
  | content
deriving DecidableEq

/-- Whether a control character is a tab or ends a line or a page. -/
def isBlankControl (c : Char) : Bool :=
  c = '\t' || c = '\n' || c = '\x0C' || c = '\r'

namespace ControlState

/-- Whether a character is seen. -/
def shows (state : ControlState) (c : Char) : Bool :=
  match state with
  | outside => isBlankControl c || 0x20 ≤ c.toNat && c.toNat ≠ 0x7F
  | escape | qualified | parameters => isBlankControl c
  | _ => false

/-- The state behind a character that neither cancels a sequence nor opens one. The content of a string
ends at a byte `9C`, even if that is a part of a character. -/
def afterPlain (state : ControlState) (c : Char) : ControlState :=
  let between (low high : Nat) : Bool := low ≤ c.toNat && c.toNat ≤ high
  match state with
  | outside => outside
  | escape =>
    if between 0x20 0x2F then qualified
    else if c = '[' then parameters
    else if c = ']' then command
    else if c = 'P' then device
    else if c = 'X' || c = '^' || c = '_' then content
    else if between 0x30 0x7E then outside
    else escape
  | qualified => if between 0x30 0x7E then outside else qualified
  | parameters => if between 0x40 0x7E then outside else parameters
  | command => if c = '\x07' then outside else command
  | device =>
    if between 0x20 0x2F then deviceQualified
    else if between 0x30 0x3F then deviceParameters
    else if between 0x40 0x7E then content
    else device
  | deviceParameters =>
    if between 0x20 0x2F then deviceQualified
    else if between 0x3C 0x7E then content
    else deviceParameters
  | deviceQualified => if between 0x30 0x7E then content else deviceQualified
  | content => if 0x9C ∈ String.utf8EncodeChar c then outside else content

/-- The state behind a character. -/
def after (state : ControlState) (c : Char) : ControlState :=
  if c = '\x18' || c = '\x1A' then outside
  else if c = '\x1B' then escape
  else state.afterPlain c

end ControlState

/-- The characters of a text that are seen, given the state before it and whether text is being seen. -/
def visibleFrom (state : ControlState) (seen : Bool) : List Char → List Char
  | [] => []
  | c :: cs =>
    if seen && ControlState.outside.shows c then
      c :: visibleFrom (if c.toNat < 0x80 then state else .outside) true cs
    else if state.shows c then c :: visibleFrom (state.after c) true cs
    else visibleFrom (state.after c) false cs

/-- The characters of a text that are seen. -/
def visible (text : List Char) : List Char :=
  visibleFrom .outside true text

end DotLang.Text
