/-
HouseStyle.Check — checking one stylesheet.

The findings of a check are what the parser had to recover from and what the rules found, as far as
they are wanted, with the severities that the options give, in order and each once.
-/
import HouseStyle.Rule

namespace HouseStyle

def Options.judge (o : Options) (d : Diagnostic) : Diagnostic :=
  { d with severity := o.severityOf d.rule }

/-- The wanted findings about a text, in the order in which they were made. -/
def rawFindings (file : String) (text : Text) (o : Options) : List Diagnostic :=
  let (sheet, recovered) := Stylesheet.ofText file text
  recovered.filter (fun d => o.enabled d.rule) ++ sheet.validate o []

def check (file : String) (text : Text) (o : Options) : List Diagnostic :=
  Diagnostic.consolidate ((rawFindings file text o).map o.judge)

end HouseStyle
