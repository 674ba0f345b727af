import SchemaAtlas.Diagnostics

/-!
Computations that keep a journal and may fail. The journal of a failed computation is kept.
-/

set_option autoImplicit false

namespace SchemaAtlas

/-- What a computation leaves behind besides its outcome: warnings, notices to the caller, and how
many random numbers it used. -/
@[ext]
structure Journal where
  warnings : Diagnostics := []
  notices : List String := []
  draws : Nat := 0
  deriving DecidableEq, Repr

namespace Journal

def append (first second : Journal) : Journal where
  warnings := first.warnings ++ second.warnings
  notices := first.notices ++ second.notices
  draws := first.draws + second.draws

instance : Append Journal := ⟨append⟩

@[simp] theorem warnings_append (a b : Journal) : (a ++ b).warnings = a.warnings ++ b.warnings := rfl
@[simp] theorem notices_append (a b : Journal) : (a ++ b).notices = a.notices ++ b.notices := rfl
@[simp] theorem draws_append (a b : Journal) : (a ++ b).draws = a.draws + b.draws := rfl

@[simp] theorem warnings_empty : ({} : Journal).warnings = [] := rfl
@[simp] theorem notices_empty : ({} : Journal).notices = [] := rfl
@[simp] theorem draws_empty : ({} : Journal).draws = 0 := rfl

@[simp] theorem empty_append (a : Journal) : ({} : Journal) ++ a = a := by
  ext1 <;> simp

@[simp] theorem append_empty (a : Journal) : a ++ ({} : Journal) = a := by
  ext1 <;> simp

theorem append_assoc (a b c : Journal) : a ++ b ++ c = a ++ (b ++ c) := by
  ext1 <;> simp [Nat.add_assoc]

end Journal

/-- An outcome together with the journal of the way to it. -/
structure Journaled (α : Type) where
  journal : Journal
  outcome : Except Fault α

namespace Journaled

variable {α β : Type}

protected def pure (a : α) : Journaled α := ⟨{}, .ok a⟩

protected def bind (x : Journaled α) (f : α → Journaled β) : Journaled β :=
  match x.outcome with
  | .error fault => ⟨x.journal, .error fault⟩
  | .ok a => ⟨x.journal ++ (f a).journal, (f a).outcome⟩

instance : Monad Journaled where
  pure := Journaled.pure
  bind := Journaled.bind

instance : LawfulMonad Journaled :=
  LawfulMonad.mk' Journaled
    (fun x => by
      obtain ⟨journal, outcome⟩ := x
      cases outcome <;> simp [Functor.map, Journaled.bind, Journaled.pure])
    (fun a f => by simp [bind, Journaled.bind, pure, Journaled.pure])
    (fun x f g => by
      obtain ⟨journal, outcome⟩ := x
      cases outcome with
      | error fault => rfl
      | ok a =>
        simp only [bind, Journaled.bind]
        cases (f a).outcome <;> simp [Journal.append_assoc])

def fail (fault : Fault) : Journaled α := ⟨{}, .error fault⟩

/-- A computation that only writes its journal. -/
def record (journal : Journal) : Journaled Unit := ⟨journal, .ok ()⟩

def warn (warning : Warning) : Journaled Unit := record { warnings := [warning] }

def info (message : String) (context : Option String := none) : Journaled Unit :=
  warn { severity := .info, message, context }

def warning (message : String) (context : Option String := none) : Journaled Unit :=
  warn { severity := .warning, message, context }

def ofExcept : Except Fault α → Journaled α
  | .ok a => pure a
  | .error fault => fail fault

/-- The computation with its fault, if there is one, seen in another way. -/
def mapFault (f : Fault → Fault) (x : Journaled α) : Journaled α :=
  ⟨x.journal, x.outcome.mapError f⟩

/-- A table is declared again: the caller is told, and a warning is kept. -/
def reportRedeclaration (table : String) : Journaled Unit :=
  record
    { warnings := [{ severity := .warning, message := redeclaration table, context := some table }]
      notices := [redeclaration table] }

end Journaled

end SchemaAtlas
