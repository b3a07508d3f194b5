/-!
Styled lines of terminal output. The style that is put on last is outermost.
-/

namespace StanzaSchema.Output

/-- A style: what turns it on, and what turns it off. -/
structure Style where
  on : String
  off : String

def Style.apply (style : Style) (text : String) : String :=
  "\x1b[" ++ style.on ++ "m" ++ text ++ "\x1b[" ++ style.off ++ "m"

def bold : Style := ⟨"1", "0"⟩
def dimmed : Style := ⟨"2", "0"⟩
def red : Style := ⟨"31", "39"⟩
def green : Style := ⟨"32", "39"⟩
def yellow : Style := ⟨"33", "39"⟩
def cyan : Style := ⟨"36", "39"⟩
def white : Style := ⟨"37", "39"⟩

def line (text : String) : String := text ++ "\n"

def emptyLine : String := line ""

/-- A title over a rule of its own length. -/
def title (text : String) : String :=
  let rule := String.ofList (List.replicate text.utf8ByteSize '─')
  emptyLine ++ line (cyan.apply (bold.apply text)) ++ line (dimmed.apply rule) ++ emptyLine

def heading (text : String) : String := line (white.apply (bold.apply text))

/-- A name and its value. -/
def fact (name value : String) : String := line ("  " ++ dimmed.apply name ++ ": " ++ value)

def item (text : String) : String := line ("  " ++ dimmed.apply "•" ++ " " ++ text)

/-- A message after a mark, both in one colour. -/
def message (colour : Style) (mark text : String) : String :=
  line (bold.apply (colour.apply mark) ++ " " ++ colour.apply text)

def success (text : String) : String := message green "✔" text

def warning (text : String) : String := message yellow "⚠" text

def failure (text : String) : String := message red "✖" text

end StanzaSchema.Output
