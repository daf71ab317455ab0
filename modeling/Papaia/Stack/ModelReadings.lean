/-
Module: Papaia.Stack.ModelReadings
Purpose: The readings of the models page: which are kept and for how long, what a reload is served, and
  how one fetch serves all who ask for a window meanwhile.
Trusted boundary: what LiteLLM answers is data; a clock that counts ticks
Main exports: Key, Request, policy, State, Event, step
-/
import Papaia.Lib.Runs
import Papaia.Lib.SharedRead
import Papaia.Stack.ModelUsage

namespace Papaia.Models.Readings

def ttlOk : Int := 60

def ttlFailed : Int := 15

/-- A re-check so soon after the last reading is served that reading. -/
def minRecheck : Int := 5

def maxCached : Nat := 16

/-- `(settings.litellm_url, window.start, window.end)`. -/
structure Key where
  url : String
  start : Int
  last : Int
deriving DecidableEq, Repr

/-- What a call of `load_reading` asks for. -/
structure Request where
  window : Window
  fresh : Bool := false
deriving DecidableEq, Repr

def ttl (reading : Reading) : Int :=
  if reading.report.isSome then ttlOk else ttlFailed

/-- What is served of what is kept, on a clock with so many ticks in a second. -/
def policy (second : Nat) : SharedRead.Policy Key Request Reading where
  serves := fun _ request reading age =>
    age < ttl reading * second && (!request.fresh || age < minRecheck * second)
  capacity := some maxCached
  joinsEnded := true

/-- `answers` are what the reads so far had to go by. -/
structure State where
  shared : SharedRead.State Key Request Reading
  answers : List (Nat × Answers) := []

inductive Event where
  /-- `load_reading`. -/
  | ask (url : String) (request : Request)
  /-- A fetch ends. -/
  | answer (i : Nat) (answers : Answers)
  /-- `_forget`, the callback of a fetch that has ended. -/
  | forget (i : Nat)
  /-- Who has waited goes on. -/
  | resume (c : Nat)
  | tick (d : Nat)

variable (second : Nat) (lib : Library) (order : SetOrder)

/-- `_fetch` of the window that its read is for; a reading is kept, an exception is not. -/
def State.fetched (s : State) (i : Nat) (read : SharedRead.Read Key Request Reading)
    (answers : Answers) : State :=
  let asked := { answers with window := read.origin.window }
  { shared := s.shared.finish (policy second) i read (fetch lib order asked).toOption
    answers := s.answers ++ [(i, asked)] }

def step (s : State) : Event → Option State
  | .ask url request =>
      let key := ⟨url, request.window.start, request.window.last⟩
      some { s with shared := s.shared.ask (policy second) key request }
  | .answer i answers =>
      (s.shared.reads[i]?).bind fun read =>
        if read.ended.isSome then none else some (s.fetched second lib order i read answers)
  | .forget i =>
      (s.shared.reads[i]?).bind fun read =>
        if read.ended.isNone || read.forgotten.isSome then none
        else some { s with shared := s.shared.forget i read }
  | .resume c => (s.shared.resumeAt c).map fun shared => { s with shared := shared }
  | .tick d => some { s with shared := s.shared.tick d }

end Papaia.Models.Readings
