import Mathlib.Data.List.Basic
import Mathlib.Logic.Function.Basic

/-!
# One path in a file system

A path names a file, a handle names a file too, and the two come apart: a
rename over the path puts another file there, and whoever opened the old one
goes on writing to it. Files are numbered, and a number is never used again.
Contents are lists over any alphabet.
-/

/-- The file at the path, if there is one, and what every file holds. -/
structure PathFile (α : Type*) where
  entry : Option ℕ
  contents : ℕ → List α
  next : ℕ

namespace PathFile

variable {α : Type*}

def ofContents (contents : Option (List α)) : PathFile α where
  entry := contents.map fun _ => 0
  contents _ := contents.getD []
  next := 1

def read (f : PathFile α) : Option (List α) := f.entry.map f.contents

def replace (text : List α) (f : PathFile α) : PathFile α where
  entry := some f.next
  contents := Function.update f.contents f.next text
  next := f.next + 1

def openAppend (f : PathFile α) : ℕ × PathFile α :=
  match f.entry with
  | some n => (n, f)
  | none => (f.next, f.replace [])

def append (n : ℕ) (text : List α) (f : PathFile α) : PathFile α :=
  { f with contents := Function.update f.contents n (f.contents n ++ text) }

@[simp] theorem read_ofContents (contents : Option (List α)) :
    (ofContents contents).read = contents := by
  cases contents <;> rfl

@[simp] theorem read_replace (text : List α) (f : PathFile α) :
    (f.replace text).read = some text := by
  simp [replace, read]

theorem entry_openAppend (f : PathFile α) : f.openAppend.2.entry = some f.openAppend.1 := by
  unfold openAppend
  split
  · assumption
  · rfl

theorem read_openAppend (f : PathFile α) :
    f.openAppend.2.read = some (f.read.getD []) := by
  unfold openAppend
  split
  · rename_i n hn
    simp [read, hn]
  · rename_i hn
    rw [read_replace, read, hn]
    rfl

variable {f : PathFile α} {n : ℕ}

theorem openAppend_of_entry (h : f.entry = some n) : f.openAppend = (n, f) := by
  unfold openAppend
  rw [h]

theorem read_append (h : f.entry = some n) (text : List α) :
    (f.append n text).read = some (f.read.getD [] ++ text) := by
  simp [append, read, h]

end PathFile
