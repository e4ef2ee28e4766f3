import HttpSnippet.Value.Basic

/-!
# Display of loose values

The form in which log lines and listings show a value: texts quoted, truth values and null by name,
containers in brackets. A container inside itself is shown as three dots.
-/
namespace HttpSnippet.Value

def displayDate (d : Date) : Text :=
  Text.join ", " [Text.ofNat d.year, Text.ofNat d.month, Text.ofNat d.day]

/-- A time of day; trailing seconds and microseconds are left out where they are zero. -/
def displayTime (t : ClockTime) : Text :=
  let parts := [Text.ofNat t.hour, Text.ofNat t.minute]
  let parts :=
    if t.microsecond ≠ 0 then parts ++ [Text.ofNat t.second, Text.ofNat t.microsecond]
    else if t.second ≠ 0 then parts ++ [Text.ofNat t.second]
    else parts
  let zone : Text := match t.offset with
    | none => []
    | some 0 => ", tzinfo=datetime.timezone.utc"
    | some n =>
      -- an offset is shown as whole days and the seconds that remain
      let days := Int.fdiv n 1440
      let seconds := Text.ofInt (Int.fmod n 1440 * 60)
      let delta : Text :=
        if days = 0 then "seconds=" ++ seconds
        else "days=" ++ Text.ofInt days ++ ", seconds=" ++ seconds
      ", tzinfo=datetime.timezone(datetime.timedelta(" ++ delta ++ "))"
  Text.join ", " parts ++ zone

/-- The quote that displayed octets stand in. -/
def octetsQuote (bytes : List UInt8) : Char :=
  if bytes.contains 0x27 && !bytes.contains 0x22 then '"' else '\''

/-- One octet inside displayed ones. -/
def displayOctet (quote : Char) (b : UInt8) : Text :=
  let c := Char.ofNat b.toNat
  if c = quote || c = '\\' then ['\\', c]
  else if c = '\n' then ['\\', 'n']
  else if c = '\r' then ['\\', 'r']
  else if c = '\t' then ['\\', 't']
  else if 0x20 ≤ b.toNat && b.toNat < 0x7F then [c]
  else '\\' :: 'x' :: Text.hex 2 b.toNat

def displayOctets (bytes : List UInt8) : Text :=
  let quote := octetsQuote bytes
  'b' :: quote :: bytes.flatMap (displayOctet quote) ++ [quote]

mutual
def display : Value → Text
  | .null => "None"
  | .bool true => "True"
  | .bool false => "False"
  | .int n => Text.ofInt n
  | .float x => x.notate
  | .str t => t.display
  | .date d => "datetime.date(" ++ displayDate d ++ ")"
  | .moment d t => "datetime.datetime(" ++ displayDate d ++ ", " ++ displayTime t ++ ")"
  | .octets bytes => displayOctets bytes
  | .list items => "[" ++ Text.join ", " (displayItems items) ++ "]"
  | .pair a b => "(" ++ display a ++ ", " ++ display b ++ ")"
  | .set [] => "set()"
  | .set (v :: vs) => "\x7b" ++ Text.join ", " (displayItems (v :: vs)) ++ "\x7d"
  | .again false => "[...]"
  | .again true => "\x7b...\x7d"
  | .map entries => "\x7b" ++ Text.join ", " (displayEntries entries) ++ "\x7d"

def displayItems : List Value → List Text
  | [] => []
  | v :: vs => display v :: displayItems vs

def displayEntries : List (Value × Value) → List Text
  | [] => []
  | (k, v) :: rest => (display k ++ ": " ++ display v) :: displayEntries rest
end

end HttpSnippet.Value
