import StanzaSchema.Command.Run

/-!
What the command line says when its arguments lead to no command.
-/

namespace StanzaSchema.UsageFault

def usage : String :=
  "Usage: microddl [OPTIONS] <COMMAND>\n\n" ++
  "Commands:\n" ++
  "  compile [INPUT] [-o DIRECTORY] [-p PREFIX]  Compile a MicroDDL file into JSON model artifacts\n" ++
  "  info [MODEL]                                Summarize a compiled model file\n" ++
  "  version                                     Display version information\n\n" ++
  "Options:\n" ++
  "  -c, --config <CONFIG>  Path to the configuration file\n" ++
  "  -v, --verbose          Enable debug logging\n" ++
  "  -h, --help             Print help\n" ++
  "  -V, --version          Print version\n"

def complaint : UsageFault → String
  | .missingCommand => "error: a command is required\n\n"
  | .unknownCommand => "error: there is no such command\n\n"
  | .unknownArgument => "error: unexpected argument\n\n"
  | .invalidValue => "error: an option needs a value\n\n"
  | .repeated => "error: an argument cannot be used more than once\n\n"
  | .unexpectedValue => "error: an option takes no value\n\n"
  | _ => ""

def text (fault : UsageFault) : String :=
  match fault with
  | .version => "microddl " ++ Command.versionNumber ++ "\n"
  | _ => fault.complaint ++ usage

end StanzaSchema.UsageFault
