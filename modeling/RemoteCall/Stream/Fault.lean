/-!
Faults: why a read, a write or a flush did not happen.

Only two kinds steer the program.  An interrupted step is tried again, and an
unexpected end in the middle of a frame is a truncated frame.  All other kinds are
handed on unchanged.
-/

namespace RemoteCall

inductive Fault.Kind where
  | notFound
  | permissionDenied
  | connectionRefused
  | connectionReset
  | hostUnreachable
  | networkUnreachable
  | connectionAborted
  | notConnected
  | addrInUse
  | addrNotAvailable
  | networkDown
  | brokenPipe
  | alreadyExists
  | wouldBlock
  | notADirectory
  | isADirectory
  | directoryNotEmpty
  | readOnlyFilesystem
  | staleNetworkFileHandle
  | invalidInput
  | invalidData
  | timedOut
  | writeZero
  | storageFull
  | notSeekable
  | quotaExceeded
  | fileTooLarge
  | resourceBusy
  | executableFileBusy
  | deadlock
  | crossesDevices
  | tooManyLinks
  | invalidFilename
  | argumentListTooLong
  | interrupted
  | unsupported
  | unexpectedEof
  | outOfMemory
  | other
  deriving DecidableEq, Repr, Inhabited

namespace Fault.Kind

def name : Fault.Kind → String
  | notFound => "NotFound"
  | permissionDenied => "PermissionDenied"
  | connectionRefused => "ConnectionRefused"
  | connectionReset => "ConnectionReset"
  | hostUnreachable => "HostUnreachable"
  | networkUnreachable => "NetworkUnreachable"
  | connectionAborted => "ConnectionAborted"
  | notConnected => "NotConnected"
  | addrInUse => "AddrInUse"
  | addrNotAvailable => "AddrNotAvailable"
  | networkDown => "NetworkDown"
  | brokenPipe => "BrokenPipe"
  | alreadyExists => "AlreadyExists"
  | wouldBlock => "WouldBlock"
  | notADirectory => "NotADirectory"
  | isADirectory => "IsADirectory"
  | directoryNotEmpty => "DirectoryNotEmpty"
  | readOnlyFilesystem => "ReadOnlyFilesystem"
  | staleNetworkFileHandle => "StaleNetworkFileHandle"
  | invalidInput => "InvalidInput"
  | invalidData => "InvalidData"
  | timedOut => "TimedOut"
  | writeZero => "WriteZero"
  | storageFull => "StorageFull"
  | notSeekable => "NotSeekable"
  | quotaExceeded => "QuotaExceeded"
  | fileTooLarge => "FileTooLarge"
  | resourceBusy => "ResourceBusy"
  | executableFileBusy => "ExecutableFileBusy"
  | deadlock => "Deadlock"
  | crossesDevices => "CrossesDevices"
  | tooManyLinks => "TooManyLinks"
  | invalidFilename => "InvalidFilename"
  | argumentListTooLong => "ArgumentListTooLong"
  | interrupted => "Interrupted"
  | unsupported => "Unsupported"
  | unexpectedEof => "UnexpectedEof"
  | outOfMemory => "OutOfMemory"
  | other => "Other"

def all : List Fault.Kind :=
  [.notFound, .permissionDenied, .connectionRefused, .connectionReset,
   .hostUnreachable, .networkUnreachable, .connectionAborted, .notConnected,
   .addrInUse, .addrNotAvailable, .networkDown, .brokenPipe, .alreadyExists,
   .wouldBlock, .notADirectory, .isADirectory, .directoryNotEmpty,
   .readOnlyFilesystem, .staleNetworkFileHandle, .invalidInput, .invalidData,
   .timedOut, .writeZero, .storageFull, .notSeekable, .quotaExceeded, .fileTooLarge,
   .resourceBusy, .executableFileBusy, .deadlock, .crossesDevices, .tooManyLinks,
   .invalidFilename, .argumentListTooLong, .interrupted, .unsupported,
   .unexpectedEof, .outOfMemory, .other]

def ofName? (s : String) : Option Fault.Kind := all.find? fun k => k.name == s

end Fault.Kind

structure Fault where
  kind : Fault.Kind
  message : String
  deriving DecidableEq, Repr, Inhabited

namespace Fault

def other (message : String) : Fault := ⟨.other, message⟩

def invalidData (message : String) : Fault := ⟨.invalidData, message⟩

/-- A sink took nothing of what it was offered. -/
def wroteNothing : Fault := ⟨.writeZero, "failed to write whole buffer"⟩

/-- The source ended before the bytes asked for had come. -/
def endedEarly : Fault := ⟨.unexpectedEof, "failed to fill whole buffer"⟩

def label (e : Fault) : String := "Io." ++ e.kind.name

end Fault

end RemoteCall
