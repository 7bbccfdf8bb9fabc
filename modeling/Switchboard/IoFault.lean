/-!
# IoFault — what can go wrong below the frames

An input or output operation fails with one of these.  `message` is the text people are shown, the
system's own number included where the system reported one.
-/

namespace Switchboard

/-- A failed input or output operation. -/
inductive IoFault where
  /-- The operation was interrupted and may be tried again. -/
  | interrupted
  /-- Nothing can be done right now. -/
  | wouldBlock
  /-- Nothing happened in time. -/
  | timedOut
  | connectionReset
  | brokenPipe
  | unexpectedEnd
  /-- A write accepted no octet. -/
  | writeZero
  /-- Nobody listens at the address. -/
  | connectionRefused
  /-- The address is taken. -/
  | addressInUse
  /-- The address belongs to another host. -/
  | addressUnavailable
  /-- No route leads to the address. -/
  | unreachable
  /-- The host has no address. -/
  | unknownHost
  /-- The address is none that can be connected to. -/
  | invalidArgument
  | notFound
  | notDirectory
  /-- Too many symbolic links on the way to a file. -/
  | tooManyLinks
  /-- A receive timeout, as the system reports it. -/
  | tryAgain
  /-- The address has no port. -/
  | noPort
  /-- The port is no number below `65536`. -/
  | badPort
  /-- The address has no host of the wanted family. -/
  | noSuchFamily
  /-- The path does not fit a socket address. -/
  | pathTooLong
  /-- The path has a null character in it. -/
  | nullInPath
  /-- The path holds something other than a socket. -/
  | notSocket
  /-- The datagram is larger than any that can be sent. -/
  | messageTooLong
deriving Repr, DecidableEq

/-- The text people are shown. -/
def IoFault.message : IoFault → String
  | interrupted => "operation interrupted"
  | wouldBlock => "operation would block"
  | timedOut => "timed out"
  | connectionReset => "connection reset"
  | brokenPipe => "broken pipe"
  | unexpectedEnd => "unexpected end of file"
  | writeZero => "write zero"
  | connectionRefused => "Connection refused (os error 111)"
  | addressInUse => "Address already in use (os error 98)"
  | addressUnavailable => "Cannot assign requested address (os error 99)"
  | unreachable => "Network is unreachable (os error 101)"
  | unknownHost => "failed to lookup address information: Name or service not known"
  | invalidArgument => "Invalid argument (os error 22)"
  | notFound => "No such file or directory (os error 2)"
  | notDirectory => "Not a directory (os error 20)"
  | tooManyLinks => "Too many levels of symbolic links (os error 40)"
  | tryAgain => "Resource temporarily unavailable (os error 11)"
  | noPort => "invalid socket address"
  | badPort => "invalid port value"
  | noSuchFamily => "no address of the requested family"
  | pathTooLong => "path must be shorter than SUN_LEN"
  | nullInPath => "paths must not contain interior null bytes"
  | notSocket => "existing path is not a unix socket"
  | messageTooLong => "Message too long (os error 90)"

end Switchboard
