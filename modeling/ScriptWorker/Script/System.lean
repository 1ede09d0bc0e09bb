import ScriptWorker.Script.Code

/-!
# The system

Programs reach files, other programs, the clock and the environment by requests to the system that
they run on, and in no other way. What a system answers may depend on everything that it was asked
before, so a system is known by its answers to sequences of requests, and two systems are the same
if no sequence tells them apart.
-/

set_option autoImplicit false

namespace ScriptWorker.Script

/-! ## Requests -/

/-- Why the system has failed to do something. -/
structure SystemError where
  message : Bytes
  number : Int64

/-- A moment by the calendar. Months and the days of a month, a year and a week count from one. -/
structure Calendar where
  year : Int
  month : Int
  day : Int
  hour : Int
  minute : Int
  second : Int
  weekday : Int
  yearDay : Int
  /-- Whether it is summer time, where that is known. -/
  summer : Option Bool

/-- How a process ended. -/
inductive ProcessEnd where
  | exited (status : Int64)
  | signalled (number : Int64)

/-- What is read from a file. -/
inductive ReadFormat where
  /-- The longest text that a numeral could start with. -/
  | numeral
  | line (keepEnd : Bool)
  /-- What is left of the file. -/
  | all
  | bytes (count : Nat)

/-- A request. Open files are known by numbers; 0, 1 and 2 are the standard streams. -/
inductive Request where
  -- time
  | clock
  | now
  /-- The moment of a time by the calendar, in UTC or where the system is. -/
  | calendar (utc : Bool) (time : Int64)
  /-- The time of a moment, whose parts may be out of their ranges. -/
  | moment (c : Calendar)
  /-- A moment in the form of one conversion specifier. -/
  | formatTime (specifier : Bytes) (c : Calendar)
  -- the process
  | seed
  | variable (name : Bytes)
  /-- Sets the locale, or asks for it where no name is given. -/
  | locale (category : String) (name : Option Bytes)
  | hasShell
  | execute (command : Bytes)
  | exit (status : Int64)
  -- the names of files
  | remove (name : Bytes)
  | rename (old new : Bytes)
  | temporaryName
  -- files
  | open (name mode : Bytes)
  /-- Starts a process with a file at its output or input. -/
  | start (command mode : Bytes)
  | temporaryFile
  | close (file : Nat)
  /-- Waits for the process of a file. -/
  | finish (file : Nat)
  | read (file : Nat) (format : ReadFormat)
  | write (file : Nat) (text : Bytes)
  | seek (file : Nat) (whence : String) (offset : Int64)
  | buffer (file : Nat) (mode : String) (size : Int64)
  | flush (file : Nat)
  -- compiled code
  /-- The form in which code is kept outside, where names and lines may be left out. -/
  | dump (code : Proto) (strip : Bool)
  | undump (form : Bytes)

/-- What a request is answered with. -/
@[reducible]
def Request.Answer : Request → Type
  | .clock => Float
  | .now => Int64
  | .calendar .. => Option Calendar
  | .moment _ => Option Int64 × Calendar
  | .formatTime .. => Bytes
  | .seed => UInt64 × UInt64
  | .variable _ => Option Bytes
  | .locale .. => Option Bytes
  | .hasShell => Bool
  | .execute _ => Except SystemError ProcessEnd
  | .exit _ => Unit
  | .remove _ => Except SystemError Unit
  | .rename .. => Except SystemError Unit
  | .temporaryName => Option Bytes
  | .open .. => Except SystemError Nat
  | .start .. => Except SystemError Nat
  | .temporaryFile => Except SystemError Nat
  | .close _ => Except SystemError Unit
  | .finish _ => Except SystemError ProcessEnd
  | .read .. => Except SystemError (Option Bytes)
  | .write .. => Except SystemError Unit
  | .seek .. => Except SystemError Int64
  | .buffer .. => Except SystemError Unit
  | .flush _ => Except SystemError Unit
  | .dump .. => Bytes
  | .undump _ => Option Proto

/-- Whether the request ends the process. -/
def Request.isExit : Request → Bool
  | .exit _ => true
  | _ => false

/-! ## Systems -/

/-- A system. -/
structure System where
  /-- The answer to a request behind earlier ones, which are in order. -/
  answerAfter : List Request → (r : Request) → r.Answer
  /-- Whether the process has ended. -/
  ended : Bool

namespace System

/-- The answer to a request. -/
def answer (s : System) (r : Request) : r.Answer := s.answerAfter [] r

/-- The system once a request has been answered. -/
def after (s : System) (r : Request) : System where
  answerAfter earlier := s.answerAfter (r :: earlier)
  ended := s.ended || r.isExit

/-- The system that keeps a state, from which it answers. -/
def ofState {σ : Type} (respond : σ → (r : Request) → r.Answer × σ) (state : σ) : System where
  answerAfter earlier := fun r => (respond (earlier.foldl (fun s q => (respond s q).2) state) r).1
  ended := false

end System

end ScriptWorker.Script
