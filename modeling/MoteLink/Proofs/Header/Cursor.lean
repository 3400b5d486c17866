import MoteLink.Header.Decode

/-!
# Going along a buffer

A header is read from one buffer and written into another by an offset that moves along. Each step
looks at the bytes next to the offset or puts others in their place. A step that reached outside the
buffer would stop the node, and there would be nothing to go on from.
-/

namespace MoteLink

/-- A buffer and the offset up to which it has been read or written. -/
structure Cursor where
  buffer : Bytes
  offset : Nat := 0

/-- Steps along a buffer, which may be refused. Nothing comes of them where they reach outside. -/
abbrev Along (α : Type) := ExceptT HeaderError (StateT Cursor Option) α

namespace Cursor

/-- The next `n` bytes, which must lie in the buffer. -/
def slice? (c : Cursor) (n : Nat) : Option Bytes :=
  if c.offset + n ≤ c.buffer.length then some ((c.buffer.drop c.offset).take n) else none

/-- The buffer with other bytes in place of the next ones, which must lie in it. -/
def overwrite? (c : Cursor) (bytes : Bytes) : Option Bytes :=
  if c.offset + bytes.length ≤ c.buffer.length then
    some (c.buffer.take c.offset ++ bytes ++ c.buffer.drop (c.offset + bytes.length))
  else none

end Cursor

namespace Along

variable {α β : Type} {x : Along α} {f : α → Along β} {c c' : Cursor}

theorem run_bind_of_ok {a : α} (done : x.run.run c = some (.ok a, c')) :
    (x >>= f).run.run c = (f a).run.run c' := by
  rw [ExceptT.run_bind, StateT.run_bind, done]
  rfl

theorem run_bind_of_error {e : HeaderError} (refused : x.run.run c = some (.error e, c')) :
    (x >>= f).run.run c = some (.error e, c') := by
  rw [ExceptT.run_bind, StateT.run_bind, refused]
  rfl

theorem run_get_bind (f : Cursor → Along β) (c : Cursor) :
    (get >>= f).run.run c = (f c).run.run c := rfl

theorem run_ofExcept_bind (a : α) (f : α → Along β) (c : Cursor) :
    (MonadExcept.ofExcept (.ok a) >>= f).run.run c = (f a).run.run c := rfl

end Along

end MoteLink
