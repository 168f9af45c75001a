import KrabkaGateway.Types

/-!
# Errors of the C++ SDK

`errors.cc`. A `std::string` is a list of bytes.
-/

namespace KrabkaGateway.Cpp

inductive ErrorKind where
  | transport
  | unauthenticated
  | invalidArgument
  | notFound
  | serverError
  | unimplemented
  deriving DecidableEq, Repr

structure Error where
  kind : ErrorKind
  message : Bytes
  deriving DecidableEq, Repr

def literal (text : String) : Bytes :=
  text.toUTF8.data.toList

def errorWithMessage (kind : ErrorKind) (message : Bytes) : Error :=
  { kind, message }

end KrabkaGateway.Cpp
