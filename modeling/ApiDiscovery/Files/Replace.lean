import ApiDiscovery.Files

/-!
# Replacing a file at once

A file is replaced by writing another one beside it and giving that the name of the first. Whoever reads
the file meanwhile sees what it held before, or all of what it is to hold. `Replacement` is the sequence
of steps; `runSteps` takes them one after the other. Any of them may break off, with a part of it done,
and the other file is taken away when one does.
-/

namespace ApiDiscovery

open Text

/-- Gives a file the path of another one, in the place of what was there. -/
def Files.move (fs : Files) (p q : Path) : Except FileFault Files := do
  let bytes ← fs.read p
  (← fs.write q bytes).remove p

/-- The steps of a replacement, in order. -/
inductive ReplaceStep where
  | makeDirectory
  | createBeside
  | openBeside
  | writeBeside
  | flush
  | sync
  | rename
deriving DecidableEq, Repr

namespace ReplaceStep

def all : List ReplaceStep :=
  [makeDirectory, createBeside, openBeside, writeBeside, flush, sync, rename]

/-- Whether the file beside is there when the step begins. -/
def leavesBeside : ReplaceStep → Bool
  | makeDirectory | createBeside => false
  | _ => true

end ReplaceStep

/-- What breaks a step off, and how much of the step is done: directories made, or bytes written. -/
structure Obstacle where
  fault : FileFault
  progress : Nat

/-- What stands in the way of a replacement, at its steps and at the clean-up. -/
structure Obstacles where
  atStep : ReplaceStep → Option Obstacle := fun _ => none
  atCleanUp : Bool := false

/-- What a replacement is about: the file, the name of the one beside it, and the new bytes. -/
structure Replacement where
  target : Path
  besideName : String
  bytes : List UInt8

namespace Replacement

def beside (r : Replacement) : Path := r.target.parent.join ⟨"", [r.besideName]⟩

/-- The files after a step that does not fail. -/
def step (r : Replacement) (fs : Files) : ReplaceStep → Except FileFault Files
  | .makeDirectory => fs.makeDirs r.target.parent
  | .createBeside => fs.write r.beside []
  | .openBeside => .ok fs
  | .writeBeside => fs.write r.beside r.bytes
  | .flush => .ok fs
  | .sync => .ok fs
  | .rename => fs.move r.beside r.target

/-- The files with as many of the directories of a path made as can be, and no more than a number. -/
def makeSome (fs : Files) (p : Path) : Nat → Files
  | 0 => fs
  | n + 1 =>
      match fs.makeDirs ⟨p.anchor, p.names.take (n + 1)⟩ with
      | .ok made => made
      | .error _ => makeSome fs p n

/-- The files after a part of a step. Bytes may reach the file beside as late as when it is flushed. -/
def begun (r : Replacement) (fs : Files) (progress : Nat) : ReplaceStep → Files
  | .makeDirectory => makeSome fs r.target.parent progress
  | .writeBeside | .flush => (fs.write r.beside (r.bytes.take progress)).toOption.getD fs
  | _ => fs

/-- The files after a step, or the fault that breaks it off and the files after a part of it. A step that
cannot be done has no other obstacle than the files. -/
def attempt (r : Replacement) (obstacles : Obstacles) (fs : Files) (s : ReplaceStep) :
    Except (FileFault × Files) Files :=
  match obstacles.atStep s with
  | some o => .error (o.fault, r.begun fs o.progress s)
  | none => (r.step fs s).mapError fun f => (f, r.begun fs r.target.names.length s)

/-- Takes away the file beside, if it can be. -/
def cleanUp (r : Replacement) (obstacles : Obstacles) (fs : Files) : Files :=
  if obstacles.atCleanUp then fs else (fs.remove r.beside).toOption.getD fs

/-- Takes steps, as far as nothing stands in the way. The states of the files follow, one for each step
that was taken or broken off and one for a clean-up. -/
def runSteps (r : Replacement) (obstacles : Obstacles) :
    List ReplaceStep → Files → Except FileFault Unit × List Files
  | [], _ => (.ok (), [])
  | s :: rest, fs =>
      match r.attempt obstacles fs s with
      | .ok fs =>
          let (result, states) := runSteps r obstacles rest fs
          (result, fs :: states)
      | .error (f, fs) => (.error f, fs :: if s.leavesBeside then [r.cleanUp obstacles fs] else [])

/-- The whole replacement: its result and the files after it. -/
def run (r : Replacement) (obstacles : Obstacles) (fs : Files) : Except FileFault Unit × Files :=
  let (result, states) := r.runSteps obstacles ReplaceStep.all fs
  (result, states.getLast?.getD fs)

end Replacement

/-- The first of the names `.NAME.0.tmp`, `.NAME.1.tmp`, … that is not taken; `fuel` bounds the search. -/
def freshName (taken : List String) (name : String) : Nat → Nat → String
  | 0, i => "." ++ name ++ "." ++ toString i ++ ".tmp"
  | fuel + 1, i =>
      let s := "." ++ name ++ "." ++ toString i ++ ".tmp"
      if taken.contains s then freshName taken name fuel (i + 1) else s

/-- The replacement of a file, with a name beside it that is not taken once its directory is there. -/
def Files.replacement (fs : Files) (p : Path) (bytes : List UInt8) : Replacement :=
  let made := (fs.makeDirs p.parent).toOption.getD fs
  let taken := ((made.list p.parent).toOption.getD []).map (·.1)
  ⟨p, freshName taken p.name taken.length 0, bytes⟩

/-- Replaces the bytes of a file, making its directory if it is not there. -/
def Files.replace (fs : Files) (p : Path) (bytes : List UInt8) : Except FileFault Unit × Files :=
  (fs.replacement p bytes).run {} fs

end ApiDiscovery
