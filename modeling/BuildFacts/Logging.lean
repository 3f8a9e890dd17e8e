import BuildFacts.Session
import BuildFacts.Text.Alphanumeric
import BuildFacts.Text.Blank

/-!
# Logging

A log filter is a list of directives with commas between them.  A directive is
a level, the name of a part of the program, or such a name, `=` and a level;
a name without a level lets everything through.  Blanks around a directive
belong to it: between blanks, a level is read as a name, and a directive with
`=` makes no sense.  `LogFilter.level?` is the highest level that some
directive lets through.

`Logging` is what a process has settled about its log.  Only the first request
counts.  A request with a filter always installs a log.  One without a filter
uses the filter of the environment, and leaves logging alone if there is none.
-/

namespace BuildFacts

/-! ## Levels -/

/-- How much is logged. -/
inductive LogLevel where
  | off
  | error
  | warn
  | info
  | debug
  | trace
  deriving DecidableEq

namespace LogLevel

/-- The levels, from the lowest to the highest. -/
def all : List LogLevel := [.off, .error, .warn, .info, .debug, .trace]

/-- The name of a level. -/
def name : LogLevel → String
  | .off => "off"
  | .error => "error"
  | .warn => "warn"
  | .info => "info"
  | .debug => "debug"
  | .trace => "trace"

/-- The number of a level. -/
def rank : LogLevel → Nat
  | .off => 0
  | .error => 1
  | .warn => 2
  | .info => 3
  | .debug => 4
  | .trace => 5

/-- The higher one of two levels. -/
def max (a b : LogLevel) : LogLevel :=
  if a.rank < b.rank then b else a

/-- The level with a number, which may have a plus. -/
def ofNumber? (text : List Char) : Option LogLevel :=
  let digits :=
    match text with
    | '+' :: rest => rest
    | _ => text
  match digits.mapM Json.digit? with
  | none | some [] => none
  | some values => all[Json.NumberLiteral.ofDigits values]?

/-- The level with a name, whatever the case of its ASCII letters, or with a
number. -/
def ofText? (text : List Char) : Option LogLevel :=
  (ofNumber? text).or (all.find? fun level => level.name.toList = text.map Char.toLower)

end LogLevel

/-! ## Filters -/

namespace LogFilter

/-- Whether a name may start with a character. -/
def isNameStart (c : Char) : Bool :=
  Text.isAlphanumeric c || c == '-' || c == ':' || c == '_'

/-- Whether a text starts as a name does. -/
def startsName (text : List Char) : Bool :=
  text.head?.any isNameStart

/-- The level that a directive lets through, unless it makes no sense. -/
def directiveLevel? (directive : List Char) : Option LogLevel :=
  match directive.dropWhile (· != '=') with
  | [] =>
    if startsName (directive.dropWhile Text.isBlank) then
      some ((LogLevel.ofText? directive).getD .trace)
    else none
  | _ :: level =>
    if !startsName directive then none
    else if level.isEmpty then some .trace
    else LogLevel.ofText? level

/-- The directives of a filter.  Nothing between two commas is no directive. -/
def directives (filter : String) : List (List Char) :=
  (Text.splitAt (· == ',') filter.toList).filter fun directive => !directive.isEmpty

/-- The highest one of some levels; `none` without levels. -/
def highest : List LogLevel → Option LogLevel
  | [] => none
  | level :: rest => some (rest.foldl LogLevel.max level)

/-- The level of a filter, unless one of its directives makes no sense.  A
filter without directives lets nothing through. -/
def level? (filter : String) : Option LogLevel :=
  (fun levels => (highest levels).getD .off) <$> (directives filter).mapM directiveLevel?

/-- The level of the environment's filter.  Directives that make no sense do
not count; without any other, errors are logged. -/
def environmentLevel (filter : String) : LogLevel :=
  (highest ((directives filter).filterMap directiveLevel?)).getD .error

/-- The level in the place of a filter that makes no sense. -/
def fallback : LogLevel := .warn

end LogFilter

/-! ## The log of a process -/

/-- What a process has settled about its log. -/
structure Logging where
  /-- Whether there has been a request. -/
  settled : Bool
  /-- The level of the log, if one is installed. -/
  installed : Option LogLevel
  /-- The filters that were reported because they make no sense. -/
  reported : List String
  deriving DecidableEq

namespace Logging

/-- A process that has not been asked to log. -/
def start : Logging := ⟨false, none, []⟩

/-- The level up to which the process logs. -/
def level (logging : Logging) : LogLevel :=
  logging.installed.getD .off

/-- What the first request settles. -/
def settle (environment filter : Option String) : Logging :=
  match filter, environment with
  | some text, _ =>
    match LogFilter.level? text with
    | some level => ⟨true, some level, []⟩
    | none => ⟨true, some LogFilter.fallback, [text]⟩
  | none, some text => ⟨true, some (LogFilter.environmentLevel text), []⟩
  | none, none => ⟨true, none, []⟩

/-- A request to log, in an environment that may have a filter of its own. -/
def request (environment filter : Option String) (logging : Logging) : Logging :=
  if logging.settled then logging else settle environment filter

end Logging

/-- The request of a session. -/
def Session.requestLogging (session : Session) (environment : Option String) (logging : Logging) :
    Logging :=
  logging.request environment session.filter

end BuildFacts
