import MmMem.WorkerRoutines

namespace MmMem
open Prog
set_option autoImplicit true

/-- The statements that the macros of the bandwidth kernels expand to. -/
inductive Statement where
  /-- `ret += *p;` -/
  | addWord
  /-- `*p = ret;` -/
  | storeWord
  /-- `p += 4;` -/
  | advance
  | nop
  deriving Repr, DecidableEq

abbrev Code := List Statement

def rd32 : Code := [.addWord, .advance]

def wr32 : Code := [.storeWord, .advance]

def lp1 (x : Code) : Code := x

def lp2 (x : Code) : Code := x ++ x

def lp3 (x : Code) : Code := x ++ x ++ x

def lp4 (x : Code) : Code := lp2 x ++ lp2 x

def lp5 (x : Code) : Code := lp3 x ++ lp2 x

def lp8 (x : Code) : Code := lp4 x ++ lp4 x

def lp16 (x : Code) : Code := lp8 x ++ lp8 x

def lp32 (x : Code) : Code := lp16 x ++ lp16 x

def lp42 (x : Code) : Code := lp32 x ++ lp8 x ++ lp2 x

def lp64 (x : Code) : Code := lp32 x ++ lp32 x

def lp128 (x : Code) : Code := lp64 x ++ lp64 x

def lp256 (x : Code) : Code := lp128 x ++ lp128 x

def mn1 : Code := [.nop]

def mn2 : Code := mn1 ++ mn1

def mn4 : Code := mn2 ++ mn2

def mn8 : Code := mn4 ++ mn4

def mn16 : Code := mn8 ++ mn8

def mn32 : Code := mn16 ++ mn16

def mn48 : Code := mn16 ++ mn32

def mn64 : Code := mn32 ++ mn32

def mn80 : Code := mn32 ++ mn48

def mn88 : Code := mn32 ++ mn48 ++ mn8

def mn96 : Code := mn32 ++ mn64

def mn104 : Code := mn64 ++ mn48 ++ mn8

def mn112 : Code := mn64 ++ mn48

def mn128 : Code := mn64 ++ mn64

def mn160 : Code := mn64 ++ mn96

def mn192 : Code := mn64 ++ mn128

def mn224 : Code := mn64 ++ mn160

def mn256 : Code := mn128 ++ mn128

def mn320 : Code := mn128 ++ mn192

def mn384 : Code := mn128 ++ mn256

def mn448 : Code := mn256 ++ mn192

def mn512 : Code := mn256 ++ mn256

def mn640 : Code := mn256 ++ mn384

def mn768 : Code := mn256 ++ mn512

def mn1024 : Code := mn512 ++ mn512

def mn1536 : Code := mn512 ++ mn1024

def mn2048 : Code := mn1024 ++ mn1024

def kernelBwR1w0Sequential : Code := lp256 rd32

def kernelBwR1w1Sequential : Code := lp128 (rd32 ++ wr32)

def kernelBwR2w1Sequential : Code := lp32 (lp4 rd32 ++ lp2 (rd32 ++ wr32))

def kernelBwR3w1Sequential : Code := lp42 (lp5 rd32 ++ wr32) ++ lp3 rd32 ++ lp1 wr32

/-- The pattern of the kernels `k_r1w0_s_n`; `nops` is what delays them. -/
def kR1w0S (nops : Code) : Code := lp256 (rd32 ++ nops)

def kR1w1S (nops : Code) : Code := lp128 (rd32 ++ wr32 ++ lp4 nops)

def kR2w1S (nops : Code) : Code := lp32 (lp4 rd32 ++ lp2 (rd32 ++ wr32) ++ lp3 nops)

def kR3w1S (nops : Code) : Code :=
  lp42 (lp5 rd32 ++ wr32 ++ lp8 nops) ++ lp3 rd32 ++ lp1 wr32 ++ lp4 nops

def kR1w0SN1 : Code := kR1w0S mn1

def kR1w0SN8 : Code := kR1w0S mn8

def kR1w0SN32 : Code := kR1w0S mn32

def kR1w0SN48 : Code := kR1w0S mn48

def kR1w0SN64 : Code := kR1w0S mn64

def kR1w0SN80 : Code := kR1w0S mn80

def kR1w0SN88 : Code := kR1w0S mn88

def kR1w0SN96 : Code := kR1w0S mn96

def kR1w0SN104 : Code := kR1w0S mn104

def kR1w0SN112 : Code := kR1w0S mn112

def kR1w0SN128 : Code := kR1w0S mn128

def kR1w0SN160 : Code := kR1w0S mn160

def kR1w0SN192 : Code := kR1w0S mn192

def kR1w0SN224 : Code := kR1w0S mn224

def kR1w0SN256 : Code := kR1w0S mn256

def kR1w0SN384 : Code := kR1w0S mn384

def kR1w0SN512 : Code := kR1w0S mn512

def kR1w0SN768 : Code := kR1w0S mn768

def kR1w0SN1024 : Code := kR1w0S mn1024

def kR1w0SN1536 : Code := kR1w0S mn1536

def kR1w0SN2048 : Code := kR1w0S mn2048

def kR1w1SN1 : Code := kR1w1S mn1

def kR1w1SN8 : Code := kR1w1S mn8

def kR1w1SN32 : Code := kR1w1S mn32

def kR1w1SN48 : Code := kR1w1S mn48

def kR1w1SN64 : Code := kR1w1S mn64

def kR1w1SN80 : Code := kR1w1S mn80

def kR1w1SN88 : Code := kR1w1S mn88

def kR1w1SN96 : Code := kR1w1S mn96

def kR1w1SN104 : Code := kR1w1S mn104

def kR1w1SN112 : Code := kR1w1S mn112

def kR1w1SN128 : Code := kR1w1S mn128

def kR1w1SN160 : Code := kR1w1S mn160

def kR1w1SN192 : Code := kR1w1S mn192

def kR1w1SN224 : Code := kR1w1S mn224

def kR1w1SN256 : Code := kR1w1S mn256

def kR1w1SN384 : Code := kR1w1S mn384

def kR1w1SN512 : Code := kR1w1S mn512

def kR1w1SN768 : Code := kR1w1S mn768

def kR1w1SN1024 : Code := kR1w1S mn1024

def kR1w1SN1536 : Code := kR1w1S mn1536

def kR1w1SN2048 : Code := kR1w1S mn2048

def kR2w1SN1 : Code := kR2w1S mn1

def kR2w1SN8 : Code := kR2w1S mn8

def kR2w1SN32 : Code := kR2w1S mn32

def kR2w1SN48 : Code := kR2w1S mn48

def kR2w1SN64 : Code := kR2w1S mn64

def kR2w1SN80 : Code := kR2w1S mn80

def kR2w1SN88 : Code := kR2w1S mn88

def kR2w1SN96 : Code := kR2w1S mn96

def kR2w1SN104 : Code := kR2w1S mn104

def kR2w1SN112 : Code := kR2w1S mn112

def kR2w1SN128 : Code := kR2w1S mn128

def kR2w1SN160 : Code := kR2w1S mn160

def kR2w1SN192 : Code := kR2w1S mn192

def kR2w1SN224 : Code := kR2w1S mn224

def kR2w1SN256 : Code := kR2w1S mn256

def kR2w1SN320 : Code := kR2w1S mn320

def kR2w1SN384 : Code := kR2w1S mn384

def kR2w1SN448 : Code := kR2w1S mn448

def kR2w1SN512 : Code := kR2w1S mn512

def kR2w1SN640 : Code := kR2w1S mn640

def kR2w1SN768 : Code := kR2w1S mn768

def kR2w1SN1024 : Code := kR2w1S mn1024

def kR2w1SN1536 : Code := kR2w1S mn1536

def kR2w1SN2048 : Code := kR2w1S mn2048

def kR3w1SN1 : Code := kR3w1S mn1

def kR3w1SN8 : Code := kR3w1S mn8

def kR3w1SN32 : Code := kR3w1S mn32

def kR3w1SN48 : Code := kR3w1S mn48

def kR3w1SN64 : Code := kR3w1S mn64

def kR3w1SN80 : Code := kR3w1S mn80

def kR3w1SN88 : Code := kR3w1S mn88

def kR3w1SN96 : Code := kR3w1S mn96

def kR3w1SN104 : Code := kR3w1S mn104

def kR3w1SN112 : Code := kR3w1S mn112

def kR3w1SN128 : Code := kR3w1S mn128

def kR3w1SN160 : Code := kR3w1S mn160

def kR3w1SN192 : Code := kR3w1S mn192

def kR3w1SN224 : Code := kR3w1S mn224

def kR3w1SN256 : Code := kR3w1S mn256

def kR3w1SN384 : Code := kR3w1S mn384

def kR3w1SN512 : Code := kR3w1S mn512

def kR3w1SN768 : Code := kR3w1S mn768

def kR3w1SN1024 : Code := kR3w1S mn1024

def kR3w1SN1536 : Code := kR3w1S mn1536

def kR3w1SN2048 : Code := kR3w1S mn2048

/-- What `get_kernels_with_wrmix` fills `rwmix_and_kernels` with. -/
def rwmixAndKernels (readWriteMix : UInt32) : List (UInt32 × Code) :=
  if readWriteMix = 0 then [(0, kernelBwR1w0Sequential)]
  else if readWriteMix = 1 then [(1, kernelBwR1w1Sequential)]
  else if readWriteMix = 2 then [(2, kernelBwR2w1Sequential)]
  else if readWriteMix = 3 then [(3, kernelBwR3w1Sequential)]
  else if readWriteMix = 100 then
    [(0, kernelBwR1w0Sequential), (3, kernelBwR3w1Sequential), (2, kernelBwR2w1Sequential),
     (1, kernelBwR1w1Sequential)]
  else [(0, kernelBwR1w0Sequential)]

/-- The delays a mix lists, with the kernels that inject them. -/
def getKernelsWithDelays (readWriteMix : UInt32) : List (Int32 × Code) :=
  if readWriteMix = 0 then
    [(1, kR1w0SN1), (8, kR1w0SN8), (32, kR1w0SN32), (48, kR1w0SN48), (64, kR1w0SN64),
     (80, kR1w0SN80), (88, kR1w0SN88), (96, kR1w0SN96), (104, kR1w0SN104), (112, kR1w0SN112),
     (128, kR1w0SN128), (160, kR1w0SN160), (192, kR1w0SN192), (224, kR1w0SN224),
     (256, kR1w0SN256), (384, kR1w0SN384), (512, kR1w0SN512), (768, kR1w0SN768),
     (1024, kR1w0SN1024), (1536, kR1w0SN1536), (2048, kR1w0SN2048)]
  else if readWriteMix = 1 then
    [(1, kR1w1SN1), (8, kR1w1SN8), (32, kR1w1SN32), (48, kR1w1SN48), (64, kR1w1SN64),
     (80, kR1w1SN80), (88, kR1w1SN88), (96, kR1w1SN96), (104, kR1w1SN104), (112, kR1w1SN112),
     (128, kR1w1SN128), (160, kR1w1SN160), (192, kR1w1SN192), (224, kR1w1SN224),
     (256, kR1w1SN256), (384, kR1w1SN384), (512, kR1w1SN512), (768, kR1w1SN768),
     (1024, kR1w1SN1024), (1536, kR1w1SN1536), (2048, kR1w1SN2048)]
  else if readWriteMix = 2 then
    [(1, kR2w1SN1), (8, kR2w1SN8), (32, kR2w1SN32), (48, kR2w1SN48), (64, kR2w1SN64),
     (80, kR2w1SN80), (88, kR2w1SN88), (96, kR2w1SN96), (104, kR2w1SN104), (112, kR2w1SN112),
     (128, kR2w1SN128), (160, kR2w1SN160), (192, kR2w1SN192), (224, kR2w1SN224),
     (256, kR2w1SN256), (320, kR2w1SN320), (384, kR2w1SN384), (448, kR2w1SN448),
     (512, kR2w1SN512), (640, kR2w1SN640), (768, kR2w1SN768), (1024, kR2w1SN1024),
     (1536, kR2w1SN1536), (2048, kR2w1SN2048)]
  else if readWriteMix = 3 then
    [(1, kR3w1SN1), (8, kR3w1SN8), (32, kR3w1SN32), (48, kR3w1SN48), (64, kR3w1SN64),
     (80, kR3w1SN80), (88, kR3w1SN88), (96, kR3w1SN96), (104, kR3w1SN104), (112, kR3w1SN112),
     (128, kR3w1SN128), (160, kR3w1SN160), (192, kR3w1SN192), (224, kR3w1SN224),
     (256, kR3w1SN256), (384, kR3w1SN384), (512, kR3w1SN512), (768, kR3w1SN768),
     (1024, kR3w1SN1024), (1536, kR3w1SN1536), (2048, kR3w1SN2048)]
  else [(0, kR2w1SN256)]

end MmMem
