import ChangeImpact.Text.Split

/-!
# Kinds of things

Whatever a field of a template can step into is of a kind, and a kind is a thing, too. A kind has
parts, each under a name of its own; what it does not have itself it has from the most general
kind, which is the last one in which a part is looked for.
-/

namespace ChangeImpact.Template

inductive Kind where
  | anything
  | text
  | number
  | kind
  | row
  | nothing
  | function
  | wrapper
  | methodPart
  | slotPart
  | attributePart
  | memberPart
  deriving Repr, DecidableEq

/-- How a part serves the things that have it: a slot and a method act on the thing, an attribute
and a member are read from it, and the others need no thing but only its kind: the one that it
has, the one that the part is from, or none at all. -/
inductive Service where
  | slot
  | method
  | attribute
  | member
  | ofKind
  | maker
  | free
  deriving Repr, DecidableEq

namespace Kind

def name : Kind → String
  | anything => "object"
  | text => "str"
  | number => "int"
  | kind => "type"
  | row => "tuple"
  | nothing => "NoneType"
  | function => "builtin_function_or_method"
  | wrapper => "method-wrapper"
  | methodPart => "method_descriptor"
  | slotPart => "wrapper_descriptor"
  | attributePart => "getset_descriptor"
  | memberPart => "member_descriptor"

def ancestry (k : Kind) : List Kind := if k == .anything then [k] else [k, .anything]

def description? : Kind → Option String
  | anything => some <|
    "The base class of the class hierarchy.\n" ++
    "\n" ++
    "When called, it accepts no arguments and returns a new featureless\n" ++
    "instance that has no instance attributes and cannot be given any.\n"
  | text => some <|
    "str(object='') -> str\n" ++
    "str(bytes_or_buffer[, encoding[, errors]]) -> str\n" ++
    "\n" ++
    "Create a new string object from the given object. If encoding or\n" ++
    "errors is specified, then the object must expose a data buffer\n" ++
    "that will be decoded using the given encoding and error handler.\n" ++
    "Otherwise, returns the result of object.__str__() (if defined)\n" ++
    "or repr(object).\n" ++
    "encoding defaults to sys.getdefaultencoding().\n" ++
    "errors defaults to 'strict'."
  | number => some <|
    "int([x]) -> integer\n" ++
    "int(x, base=10) -> integer\n" ++
    "\n" ++
    "Convert a number or string to an integer, or return 0 if no arguments\n" ++
    "are given.  If x is a number, return x.__int__().  For floating point\n" ++
    "numbers, this truncates towards zero.\n" ++
    "\n" ++
    "If x is not a number or if base is given, then x must be a string,\n" ++
    "bytes, or bytearray instance representing an integer literal in the\n" ++
    "given base.  The literal can be preceded by '+' or '-' and be surrounded\n" ++
    "by whitespace.  The base defaults to 10.  Valid bases are 0 and 2-36.\n" ++
    "Base 0 means to interpret the base from the string as an integer literal.\n" ++
    ">>> int('0b100', base=0)\n" ++
    "4"
  | kind => some <|
    "type(object) -> the object's type\n" ++
    "type(name, bases, dict, **kwds) -> a new type"
  | row => some <|
    "Built-in immutable sequence.\n" ++
    "\n" ++
    "If no argument is given, the constructor returns an empty tuple.\n" ++
    "If iterable is specified the tuple is initialized from iterable's items.\n" ++
    "\n" ++
    "If the argument is a tuple, the return value is the same object."
  | _ => none

def signature? : Kind → Option String
  | anything => some "()"
  | row => some "(iterable=(), /)"
  | _ => none

def basicSize : Kind → Nat
  | .anything | .nothing => 16
  | .text => 80
  | .number | .row => 24
  | .kind => 904
  | .wrapper => 32
  | .attributePart | .memberPart => 48
  | _ => 56

def itemSize : Kind → Nat
  | .number => 4
  | .kind => 40
  | .row => 8
  | _ => 0

def tableOffset : Kind → Nat
  | .kind => 264
  | _ => 0

def referenceOffset : Kind → Nat
  | .kind => 368
  | .function => 40
  | _ => 0

def flags : Kind → Nat
  | .anything => 529664
  | .text => 273159424
  | .number => 21501184
  | .kind => 2148031744
  | .row => 71849248
  | .nothing => 528640
  | .function => 547200
  | .wrapper => 20864
  | .methodPart => 153984
  | .slotPart => 676224
  | _ => 545152

def slots : Kind → String
  | .anything => "
    __repr__ __hash__ __str__ __getattribute__ __setattr__ __delattr__ __lt__ __le__ __eq__
    __ne__ __gt__ __ge__ __init__"
  | .text => "
    __repr__ __hash__ __str__ __getattribute__ __lt__ __le__ __eq__ __ne__ __gt__ __ge__
    __iter__ __mod__ __rmod__ __len__ __getitem__ __add__ __mul__ __rmul__ __contains__"
  | .number => "
    __repr__ __hash__ __getattribute__ __lt__ __le__ __eq__ __ne__ __gt__ __ge__ __add__
    __radd__ __sub__ __rsub__ __mul__ __rmul__ __mod__ __rmod__ __divmod__ __rdivmod__ __pow__
    __rpow__ __neg__ __pos__ __abs__ __bool__ __invert__ __lshift__ __rlshift__ __rshift__
    __rrshift__ __and__ __rand__ __xor__ __rxor__ __or__ __ror__ __int__ __float__ __floordiv__
    __rfloordiv__ __truediv__ __rtruediv__ __index__"
  | .kind => "
    __repr__ __call__ __getattribute__ __setattr__ __delattr__ __init__ __or__ __ror__"
  | .row => "
    __repr__ __hash__ __getattribute__ __lt__ __le__ __eq__ __ne__ __gt__ __ge__ __iter__
    __len__ __getitem__ __add__ __mul__ __rmul__ __contains__"
  | .nothing => "__repr__ __bool__"
  | .function => "
    __repr__ __hash__ __call__ __getattribute__ __lt__ __le__ __eq__ __ne__ __gt__ __ge__"
  | .wrapper => "
    __repr__ __hash__ __call__ __getattribute__ __lt__ __le__ __eq__ __ne__ __gt__ __ge__"
  | .methodPart => "__repr__ __call__ __getattribute__ __get__"
  | .slotPart => "__repr__ __call__ __getattribute__ __get__"
  | .attributePart => "__repr__ __getattribute__ __get__ __set__ __delete__"
  | .memberPart => "__repr__ __getattribute__ __get__ __set__ __delete__"

def methods : Kind → String
  | .anything => "__reduce_ex__ __reduce__ __getstate__ __format__ __sizeof__ __dir__"
  | .text => "
    encode replace split rsplit join capitalize casefold title center count expandtabs find
    partition index ljust lower lstrip rfind rindex rjust rstrip rpartition splitlines strip
    swapcase translate upper startswith endswith removeprefix removesuffix isascii islower
    isupper istitle isspace isdecimal isdigit isnumeric isalpha isalnum isidentifier isprintable
    zfill format format_map __format__ __sizeof__ __getnewargs__"
  | .number => "
    conjugate bit_length bit_count to_bytes as_integer_ratio __trunc__ __floor__ __ceil__
    __round__ __getnewargs__ __format__ __sizeof__"
  | .kind => "mro __subclasses__ __instancecheck__ __subclasscheck__ __dir__ __sizeof__"
  | .row => "__getnewargs__ index count"
  | .function => "__reduce__"
  | .wrapper => "__reduce__"
  | .methodPart => "__reduce__"
  | .slotPart => "__reduce__"
  | .memberPart => "__reduce__"
  | _ => ""

def attributes : Kind → String
  | .anything => "__class__"
  | .number => "real imag numerator denominator"
  | .kind => "
    __name__ __qualname__ __bases__ __module__ __abstractmethods__ __dict__ __doc__
    __text_signature__ __annotations__"
  | .function => "__doc__ __name__ __qualname__ __self__ __text_signature__"
  | .wrapper => "__objclass__ __name__ __qualname__ __doc__ __text_signature__"
  | .methodPart => "__doc__ __qualname__ __text_signature__"
  | .slotPart => "__doc__ __qualname__ __text_signature__"
  | .attributePart => "__doc__ __qualname__"
  | .memberPart => "__doc__ __qualname__"
  | _ => ""

def members : Kind → String
  | .kind => "
    __basicsize__ __itemsize__ __flags__ __weakrefoffset__ __base__ __dictoffset__ __mro__"
  | .function => "__module__"
  | .wrapper => "__self__"
  | .methodPart => "__objclass__ __name__"
  | .slotPart => "__objclass__ __name__"
  | .attributePart => "__objclass__ __name__"
  | .memberPart => "__objclass__ __name__"
  | _ => ""

def partsOfKind : Kind → String
  | .anything => "__subclasshook__ __init_subclass__"
  | .number => "from_bytes"
  | .kind => "__prepare__"
  | .row => "__class_getitem__"
  | _ => ""

def freeParts : Kind → String
  | .text => "maketrans"
  | _ => ""

def makers : Kind → String
  | .anything | .text | .number | .kind | .row | .nothing => "__new__"
  | _ => ""

def parts (k : Kind) : Service → String
  | .slot => k.slots
  | .method => k.methods
  | .attribute => k.attributes
  | .member => k.members
  | .ofKind => k.partsOfKind
  | .maker => k.makers
  | .free => k.freeParts

def services : List Service := [.slot, .method, .attribute, .member, .ofKind, .maker, .free]

def ownPart? (k : Kind) (name : String) : Option Service :=
  services.find? fun s => (Text.words (k.parts s).toList).contains name.toList

/-- The kind that a thing of kind `k` has the part called `name` from, and how the part serves. -/
def part? (k : Kind) (name : String) : Option (Kind × Service) :=
  k.ancestry.findSome? fun owner => (owner.ownPart? name).map fun s => (owner, s)

end Kind

end ChangeImpact.Template
