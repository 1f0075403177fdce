/-
# Parsers

A source text is parsed in a language that is at hand.  A parser may give up on a text, as it does
when it has been given a limit of time that the text exceeds.  Which texts these are is not known,
so parsers are taken as a function of the language, the path and the text that may have no tree to
give.  The parsers of the library are those that never give up.
-/
import Codemap.Facts.Analysis
import Codemap.Pipeline.Error

namespace Codemap

open Codemap.Syntax

/-- The languages at hand, and what is made of a text in one of them: its syntax tree, or nothing
if the parser gives up. -/
structure Parsers where
  languages : List Language
  tree? : Language → (path text : String) → Option Node

namespace Parsers

/-- The parsers of the library for some languages.  They give up on no text. -/
def builtIn (languages : List Language) : Parsers :=
  ⟨languages, fun language _ text => some (parseSource language text)⟩

/-- Languages stand for the parsers of the library. -/
instance : Coe (List Language) Parsers := ⟨builtIn⟩

/-- The parsers with a limit of time for each text; `duration` is how long a text takes. -/
def withLimit (p : Parsers) (limit : Nat) (duration : Language → String → Nat) : Parsers where
  languages := p.languages
  tree? language path text :=
    if duration language text ≤ limit then p.tree? language path text else none

/-- Whether a language is at hand. -/
def supports (p : Parsers) (language : Language) : Bool := p.languages.contains language

/-- Why a parser that gives up has no tree. -/
def noTree : String := "parser produced no tree (timed out or cancelled)"

/-- A text, parsed.  A language that is not at hand is an error of the request, a parser that gives
up is one of the file. -/
def parse (p : Parsers) (language : Language) (path text : String) :
    Except AnalysisError ParsedFile :=
  if p.supports language then
    match p.tree? language path text with
    | some tree => .ok ⟨path, language, tree⟩
    | none => .error (.unparsed language path noTree)
  else .error (.unsupportedLanguage language.name)

variable {p : Parsers} {language : Language} {path text : String}

theorem parse_of_tree?_eq_some {tree : Node} (hl : p.supports language)
    (ht : p.tree? language path text = some tree) :
    p.parse language path text = .ok ⟨path, language, tree⟩ := by
  rw [parse, if_pos hl, ht]

theorem parse_of_tree?_eq_none (hl : p.supports language) (ht : p.tree? language path text = none) :
    p.parse language path text = .error (.unparsed language path noTree) := by
  rw [parse, if_pos hl, ht]

theorem parse_of_not_supports (hl : ¬ p.supports language) :
    p.parse language path text = .error (.unsupportedLanguage language.name) := by
  rw [parse, if_neg hl]

end Parsers

end Codemap
