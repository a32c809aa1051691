import Pinout.CommandLine.Flag

/-! # Help texts

What the program prints when help is asked for, laid out for eighty columns.
-/

namespace Pinout.CommandLine

def programName : Text := "hdldoc.py"

namespace Scope

/-- The words that lead to a scope. -/
def path : Scope → Text
  | program => programName
  | command c => programName ++ " " ++ c.name

def usage : Scope → List Text
  | program =>
    ["usage: hdldoc.py [-h] [--dialect \x7bverilog,vhdl\x7d] [-o PATH] [-v]",
     "                 \x7binfo,usage,testbench,doc\x7d ..."]
  | command .doc =>
    ["usage: hdldoc.py doc [-h] [--format \x7bsvg,markdown\x7d] [--dark]",
     "                     [--description DESCRIPTION]",
     "                     FILE"]
  | command c => ["usage: " ++ (command c).path ++ " [-h] FILE"]

def explanation : Scope → List Text
  | program =>
    ["Document Verilog modules and VHDL entities.",
     "",
     "positional arguments:",
     "  \x7binfo,usage,testbench,doc\x7d",
     "    info                Print module name, ports and generics as JSON.",
     "    usage               Print an instantiation template.",
     "    testbench           Print a stimulus testbench.",
     "    doc                 Render a documentation page or block diagram.",
     "",
     "options:",
     "  -h, --help            show this help message and exit",
     "  --dialect \x7bverilog,vhdl\x7d",
     "                        HDL dialect (default: inferred from the file",
     "                        extension).",
     "  -o PATH, --output PATH",
     "                        Write the result to PATH instead of stdout.",
     "  -v, --verbose         Log extraction details to stderr."]
  | command .doc =>
    ["positional arguments:",
     "  FILE                  HDL file to parse.",
     "",
     "options:",
     "  -h, --help            show this help message and exit",
     "  --format \x7bsvg,markdown\x7d",
     "                        Output format (default: markdown).",
     "  --dark                Use the dark palette for SVG output.",
     "  --description DESCRIPTION",
     "                        Text for the Markdown description section."]
  | command _ =>
    ["positional arguments:",
     "  FILE        HDL file to parse.",
     "",
     "options:",
     "  -h, --help  show this help message and exit"]

def help (s : Scope) : Text :=
  Text.document [s.usage, [""], s.explanation]

def complaint (s : Scope) (message : RawText) : RawText :=
  Text.document [s.usage] ++ (s.path ++ ": error: ") ++ message ++ "\n"

end Scope

end Pinout.CommandLine
