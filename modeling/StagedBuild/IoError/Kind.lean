/-!
# Kinds of errors

What files, pipes and processes report falls into kinds, and a bare error says no more than its
kind does.
-/

namespace StagedBuild

/-- The kinds of errors that files, pipes and processes report. -/
inductive IoErrorKind where
  | notFound
  | permissionDenied
  | alreadyExists
  | notADirectory
  | isADirectory
  | directoryNotEmpty
  | invalidFilename
  | crossesDevices
  | readOnlyFilesystem
  | filesystemLoop
  | fileTooLarge
  | tooManyLinks
  | storageFull
  | quotaExceeded
  | staleNetworkFileHandle
  | notSeekable
  | executableFileBusy
  | resourceBusy
  | argumentListTooLong
  | deadlock
  | brokenPipe
  | wouldBlock
  | inProgress
  | interrupted
  | timedOut
  | addressInUse
  | addressNotAvailable
  | connectionAborted
  | connectionRefused
  | connectionReset
  | hostUnreachable
  | networkDown
  | networkUnreachable
  | notConnected
  | invalidInput
  | invalidData
  | writeZero
  | unexpectedEof
  | outOfMemory
  | unsupported
  | other
  | uncategorized
  deriving DecidableEq, Repr

namespace IoErrorKind

/-- What a bare error of this kind says. -/
def description : IoErrorKind → String
  | notFound => "entity not found"
  | permissionDenied => "permission denied"
  | alreadyExists => "entity already exists"
  | notADirectory => "not a directory"
  | isADirectory => "is a directory"
  | directoryNotEmpty => "directory not empty"
  | invalidFilename => "invalid filename"
  | crossesDevices => "cross-device link or rename"
  | readOnlyFilesystem => "read-only filesystem or storage medium"
  | filesystemLoop => "filesystem loop or indirection limit (e.g. symlink loop)"
  | fileTooLarge => "file too large"
  | tooManyLinks => "too many links"
  | storageFull => "no storage space"
  | quotaExceeded => "quota exceeded"
  | staleNetworkFileHandle => "stale network file handle"
  | notSeekable => "seek on unseekable file"
  | executableFileBusy => "executable file busy"
  | resourceBusy => "resource busy"
  | argumentListTooLong => "argument list too long"
  | deadlock => "deadlock"
  | brokenPipe => "broken pipe"
  | wouldBlock => "operation would block"
  | inProgress => "in progress"
  | interrupted => "operation interrupted"
  | timedOut => "timed out"
  | addressInUse => "address in use"
  | addressNotAvailable => "address not available"
  | connectionAborted => "connection aborted"
  | connectionRefused => "connection refused"
  | connectionReset => "connection reset"
  | hostUnreachable => "host unreachable"
  | networkDown => "network down"
  | networkUnreachable => "network unreachable"
  | notConnected => "not connected"
  | invalidInput => "invalid input parameter"
  | invalidData => "invalid data"
  | writeZero => "write zero"
  | unexpectedEof => "unexpected end of file"
  | outOfMemory => "out of memory"
  | unsupported => "unsupported"
  | other => "other error"
  | uncategorized => "uncategorized error"

end IoErrorKind
end StagedBuild
