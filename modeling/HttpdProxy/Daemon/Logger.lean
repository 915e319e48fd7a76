import HttpdProxy.Daemon.Selector
import HttpdProxy.Utils.Buffer

/-!
# `logger.c`: records on the two standard outputs

A record is written to its output at once; where the output would block it is
stored in the output's buffer, which the selector drains when the output can
be written again. `written` is not in the C code: it is what the descriptor
has taken so far.
-/

namespace HttpdProxy

/-- `log_level`. -/
inductive LogLevel where
  | levelTrace
  | levelDebug
  | levelInfo
  | levelWarn
  | levelError
  | levelFatal
  deriving DecidableEq, Repr

/-- `STDOUT_FILENO` and `STDERR_FILENO`. -/
inductive OutputFd where
  | stdoutFileno
  | stderrFileno
  deriving DecidableEq, Repr

def OutputFd.num : OutputFd → Int
  | .stdoutFileno => 1
  | .stderrFileno => 2

/-- `IS_STDOUT_LEVEL` and `IS_STDERR_LEVEL`. -/
def LogLevel.fd : LogLevel → OutputFd
  | .levelTrace | .levelDebug | .levelInfo | .levelWarn => .stdoutFileno
  | .levelError | .levelFatal => .stderrFileno

structure LogOutput where
  buffer : Buffer
  interest : Interest
  written : Bytes

/-- The `BUFFER_SIZE` of `logger.c`. -/
def logBufferSize : Nat := 1024

/-- One output after `init_logger`; `mem` is what `malloc` found. -/
def initLogOutput (mem : Nat → UInt8) : LogOutput where
  buffer := bufferInit logBufferSize logBufferSize mem
  interest := opNoop
  written := []

/-- What `write` returns: the bytes it took, no more than it was given; -1
with `EAGAIN` or `EWOULDBLOCK`; -1 with another error. -/
inductive WriteResult where
  | wrote (n : Nat)
  | again
  | failed
  deriving DecidableEq, Repr

/-- `logger_log`, at the output of its level. -/
def loggerLog (record : Bytes) (r : WriteResult) (o : LogOutput) :
    Except Fault LogOutput :=
  match r with
  | .wrote n => .ok { o with written := o.written ++ record.take n }
  | .failed => .ok o
  | .again =>
      if o.buffer.room < record.length then .ok o
      else do
        let buffer ← bufferAppend o.buffer record
        .ok { o with buffer := buffer, interest := opWrite }

/-- `logger_on_write_ready`. -/
def loggerOnWriteReady (r : WriteResult) (o : LogOutput) : Except Fault LogOutput :=
  match r with
  | .again | .failed => .ok { o with interest := opNoop }
  | .wrote n => do
      let bs := o.buffer.unread.take n
      let buffer ← bufferReadAdv o.buffer bs.length
      .ok
        { buffer := buffer
          interest := if !bufferCanRead buffer then opNoop else o.interest
          written := o.written ++ bs }

/-- The two outputs. -/
structure Logger where
  stdout : LogOutput
  stderr : LogOutput

namespace Logger

def output (l : Logger) : OutputFd → LogOutput
  | .stdoutFileno => l.stdout
  | .stderrFileno => l.stderr

def setOutput (l : Logger) (fd : OutputFd) (o : LogOutput) : Logger :=
  match fd with
  | .stdoutFileno => { l with stdout := o }
  | .stderrFileno => { l with stderr := o }

theorem output_setOutput (l : Logger) (fd f : OutputFd) (o : LogOutput) :
    (l.setOutput fd o).output f = if f = fd then o else l.output f := by
  cases fd <;> cases f <;> rfl

end Logger

/-- `init_logger`. -/
def initLogger (mem : OutputFd → Nat → UInt8) : Logger where
  stdout := initLogOutput (mem .stdoutFileno)
  stderr := initLogOutput (mem .stderrFileno)

/-- What happens to the logger: somebody logs a record, or an output can be
written; with what `write` then returns. -/
inductive LogEvent where
  | log (record : Bytes) (level : LogLevel) (r : WriteResult)
  | writable (fd : OutputFd) (r : WriteResult)
  deriving DecidableEq, Repr

def Logger.step (l : Logger) : LogEvent → Except Fault Logger
  | .log record level r => do
      let o ← loggerLog record r (l.output level.fd)
      .ok (l.setOutput level.fd o)
  | .writable fd r => do
      let o ← loggerOnWriteReady r (l.output fd)
      .ok (l.setOutput fd o)

end HttpdProxy
