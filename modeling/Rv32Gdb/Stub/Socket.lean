import Rv32Gdb.Stub.Packet

/-!
# Writing to the socket

`GdbStub.output` lists the buffers that the stub hands to the operating system.  Here is how they
leave: `writeAll` calls `write` until the whole buffer is taken or a call fails.  The system call
itself is a parameter, so that it may take any part of a buffer and fail at any time.
-/

namespace Rv32Gdb

variable {κ : Type}

/-- The system call `write` of a system with states `κ`: the number of bytes that are taken from
the buffer; no call takes any if the result is not positive. -/
abbrev SysWrite (κ : Type) := κ → List Byte → Int × κ

/-- `client_fd`: what has reached the client, the state of the system, and what the calls of `write`
have returned so far. -/
structure Socket (κ : Type) where
  received : List Byte
  system : κ
  results : List Int

/-- One call of `write`. -/
def Socket.write (sysWrite : SysWrite κ) (fd : Socket κ) (buf : List Byte) : Int × Socket κ :=
  let (n, system) := sysWrite fd.system buf
  (n, ⟨fd.received ++ buf.take n.toNat, system, fd.results ++ [n]⟩)

/-- `write_all`; `buf` is what is left of the buffer, from `written` on. -/
def writeAll (sysWrite : SysWrite κ) (fd : Socket κ) (buf : List Byte) : Int × Socket κ :=
  if buf = [] then (0, fd)
  else
    let (n, fd') := fd.write sysWrite buf
    if n ≤ 0 then (-1, fd') else writeAll sysWrite fd' (buf.drop n.toNat)
termination_by buf.length
decreasing_by
  rename_i hne hpos
  have := List.length_pos_iff.mpr hne
  rw [List.length_drop]
  omega

/-- The acknowledgements of `receive_packet`. -/
def isAck (buf : List Byte) : Bool := buf = [chr '+'] || buf = [chr '-']

/-- The buffers leave in the order they were written. -/
def deliver (sysWrite : SysWrite κ) (fd : Socket κ) : List (List Byte) → Socket κ
  | [] => fd
  | buf :: rest =>
    if isAck buf then
      -- one call, and only an error ends the session: `receive_packet` returns `-1`
      let (n, fd') := fd.write sysWrite buf
      if n < 0 then fd' else deliver sysWrite fd' rest
    else
      -- the callers of `send_packet` do not look at its result, and go on
      let (_, fd') := writeAll sysWrite fd buf
      deliver sysWrite fd' rest

end Rv32Gdb
