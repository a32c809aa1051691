import Pinout.Text.Classes
import Pinout.Text.LowerCase
import Pinout.Text.Quoted

/-! # Dialects

The two hardware description languages. A caller names one by a tag, in any case and with blanks
around it.
-/

namespace Pinout

/-- A hardware description language. -/
inductive Dialect where
  | verilog
  | vhdl
  deriving DecidableEq, Repr

/-- A tag that names no dialect. -/
structure UnsupportedDialect where
  tag : Text
  deriving DecidableEq, Repr

namespace Dialect

def all : List Dialect := [verilog, vhdl]

def tag : Dialect → Text
  | verilog => "verilog"
  | vhdl => "vhdl"

def title : Dialect → Text
  | verilog => "VERILOG"
  | vhdl => "VHDL"

def unitKeyword : Dialect → Text
  | verilog => "module"
  | vhdl => "entity"

def parserName : Dialect → Text
  | verilog => "VerilogParser"
  | vhdl => "VHDLParser"

/-- The dialect a tag names. Case and surrounding blanks do not count. -/
def ofTag (given : Text) : Except UnsupportedDialect Dialect :=
  let word := Text.toLower (Text.trim given)
  match all.find? (·.tag = word) with
  | some dialect => .ok dialect
  | none => .error ⟨given⟩

theorem mem_all (d : Dialect) : d ∈ all := by
  cases d <;> decide

theorem ofTag_tag (d : Dialect) : ofTag d.tag = .ok d := by
  cases d <;> rfl

end Dialect

def UnsupportedDialect.message (e : UnsupportedDialect) : Text :=
  "Unsupported HDL type: " ++ Text.quoted e.tag ++ " (supported: " ++
    Text.joinWith ", " (Dialect.all.map Dialect.tag) ++ ")"

end Pinout
