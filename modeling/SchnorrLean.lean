import SchnorrLean.Arith.PowMod
import SchnorrLean.Arith.Pratt
import SchnorrLean.Curve.Params
import SchnorrLean.Curve.Field
import SchnorrLean.Curve.Point
import SchnorrLean.Curve.Group
import SchnorrLean.Curve.Generator
import SchnorrLean.Bytes.BigEndian
import SchnorrLean.Curve.Octets
import SchnorrLean.Hash.SHA256
import SchnorrLean.Serialize.BIGNUMSerialize
import SchnorrLean.Serialize.ECPOINTSerialize
import SchnorrLean.Schnorr.Types
import SchnorrLean.Schnorr.Sign
import SchnorrLean.Schnorr.Verify
import SchnorrLean.Schnorr.Completeness
import SchnorrLean.Schnorr.PrintPoint
import SchnorrLean.Schnorr.Nonce
import SchnorrLean.MultiSig.Aggregate
