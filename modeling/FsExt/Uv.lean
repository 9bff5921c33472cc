import Mathlib.Algebra.Group.Int.Defs
import Mathlib.Algebra.Group.Nat.Defs

set_option autoImplicit false

namespace FsExt

-- The negative codes the library returns. `uv_translate_sys_error` maps an
-- operating system error to the code of the same name, and one without a name
-- in libuv to its bare negation: on macOS that is what happens to ENOATTR.
inductive UvError where
  | EACCES | EAGAIN | EBUSY | EEXIST | EFAULT | EINVAL | EIO | ENAMETOOLONG | ENODATA | ENOENT | EPERM
  | ERANGE | E2BIG
  | ENOATTR
  | other (number : Nat)
deriving DecidableEq, Repr

abbrev Status := Except UvError Unit

abbrev CString := List UInt8

end FsExt
