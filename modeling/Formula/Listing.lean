import Formula.Lowering
import Formula.Text.Visible

/-!
The listing of a compiled expression.
-/

namespace Formula

/-! ## Values -/

def listCharacter (char : Char) : List Char :=
  if char = '"' then ['\\', '"']
  else if char = '\\' then ['\\', '\\']
  else if char = '\n' then ['\\', 'n']
  else if char = '\r' then ['\\', 'r']
  else if char = '\t' then ['\\', 't']
  else if char = '\x00' then ['\\', '0']
  else if isVisible char then [char]
  else '\\' :: 'u' :: '\x7b' :: Nat.toDigits 16 char.toNat ++ ['\x7d']

def listString (text : String) : String :=
  String.ofList ('"' :: (text.toList.flatMap listCharacter ++ ['"']))

def Constant.listingText : Constant → String
  | .number value => s!"{value.kind.name}({value.listingText})"
  | .boolean value => s!"Boolean({value})"
  | .string value => s!"Str({listString value})"
  | .null => "Null"
  | .object value => s!"Object(Object({value.className}))"

/-! ## Code -/

namespace Code

def padLeft (width : Nat) (number : Nat) : String :=
  let digits := Nat.toDigits 10 number
  String.ofList (List.replicate (width - digits.length) ' ' ++ digits)

def poolLines (title : String) (entries : List String) : List String :=
  if entries.isEmpty then [s!"  {title}: []"]
  else
    s!"  {title}: [" ::
      entries.mapIdx (fun index entry => s!"    [{index}] = {entry}") ++
      ["  ]"]

def remark? (code : Code) : Instruction → Option String
  | .loadConstant index => code.constants[index.val]?.map Constant.listingText
  | .getMember name => code.names[name.val]?.map ("." ++ ·)
  | _ => none

def instructionLine (code : Code) (position : Nat)
    (instruction : Instruction) : String :=
  let line := s!"    {padLeft 4 position}  {instruction.text}"
  match code.remark? instruction with
  | some remark => s!"{line}  ; {remark}"
  | none => line

def listing (code : Code) : String :=
  "\n".intercalate <|
    "Code \x7b" ::
      s!"  result_type: {code.resultType.name}" ::
      s!"  max_stack_size: {code.maxStack}" ::
      poolLines "constants"
        (code.constants.toList.map Constant.listingText) ++
      poolLines "names" code.names.toList ++
      "  instructions:" ::
      code.instructions.toList.mapIdx code.instructionLine ++
      ["\x7d"]

end Code

end Formula
