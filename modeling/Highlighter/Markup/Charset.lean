import Highlighter.Unicode.CodeSet

/-! Character sets by name: which characters the bytes of a document stand for. Most sets keep ASCII and
say for each of the other 128 bytes which character it is, if any. -/

namespace Highlighter.Markup

/-- How the bytes of a document are read. -/
inductive Charset where
  | ascii
  | latin
  | utf8
  /-- Two bytes for each unit; the first byte is the high one in `bigEndian` texts. -/
  | utf16 (bigEndian : Bool)
  /-- The characters of the upper 128 bytes. -/
  | upper (codes : Array (Option Nat))
  deriving DecidableEq, Repr

/-- What is known of a name. -/
inductive NamedCharset where
  | known (c : Charset)
  /-- Characters take several bytes. -/
  | multibyte
  /-- The set does not keep ASCII where markup needs it. -/
  | unsuitable
  /-- The set cannot be used; what is said about it. -/
  | refused (message : String)
  | unknown
  deriving DecidableEq, Repr

namespace Charset

/-- Sets of single bytes with their names. A word of a set is a code, `x` for no character, and the
length of a run after an asterisk. -/
def singleByte : List (List String × String) := [
  (["arabic", "asmo_708", "csisolatinarabic", "ecma_114", "iso8859_6", "iso_8859_6",
    "iso_8859_6_1987", "iso_ir_127"],
    "80*21 x*3 a4 x*7 60c ad x*d 61b x*3 61f x 621*1a x*5 640*13 x*d"),
  (["cp1006"],
    "80*21 6f0*a 60c 61b ad 61f fe81 fe8d*2 fe8e*2 fe91 fb56 fb58 fe93 fe95 fe97 fb66 fb68 fe99
    fe9b fe9d fe9f fb7a fb7c fea1 fea3 fea5 fea7 fea9 fb84 feab fead fb8c feaf fb8a feb1 feb3 feb5
    feb7 feb9 febb febd febf fec1 fec5 fec9*9 fed3 fed5 fed7 fed9 fedb fb92 fb94 fedd fedf*3 fee3
    fb9e fee5 fee7 fe85 feed fba6 fba8*3 fe80 fe89*3 fef1*3 fbb0 fbae fe7c*2"),
  (["cp1051", "hp_roman8", "ibm1051", "r8", "roman8"],
    "80*21 c0 c2 c8 ca*2 ce*2 b4 2cb 2c6 a8 2dc d9 db 20a4 af dd fd b0 c7 e7 d1 f1 a1 bf a4 a3 a5
    a7 192 a2 e2 ea f4 fb e1 e9 f3 fa e0 e8 f2 f9 e4 eb f6 fc c5 ee d8 c6 e5 ed f8 e6 c4 ec d6 dc
    c9 ef df d4 c1 c3 e3 d0 f0 cd cc d3 d2 d5 f5 160*2 da 178 ff de fe b7 b5*2 be 2014 bc*2 aa ba
    ab 25a0 bb b1 x"),
  (["cp1125", "cp866u", "ibm1125", "ruscii"],
    "410*30 2591*3 2502 2524 2561*2 2556 2555 2563 2551 2557 255d 255c 255b 2510 2514 2534 252c
    251c 2500 253c 255e*2 255a 2554 2569 2566 2560 2550 256c 2567*2 2564*2 2559 2558 2552*2 256b
    256a 2518 250c 2588 2584 258c 2590 2580 440*10 401 451 490*2 404 454 406 456 407 457 b7 221a
    2116 a4 25a0 a0"),
  (["cp1250", "windows_1250"],
    "20ac x 201a x 201e 2026 2020*2 x 2030 160 2039 15a 164 17d 179 x 2018*2 201c*2 2022 2013*2 x
    2122 161 203a 15b 165 17e 17a a0 2c7 2d8 141 a4 104 a6*4 15e ab*4 17b b0*2 2db 142 b4*5 105
    15f bb 13d 2dd 13e 17c 154 c1*2 102 c4 139 106 c7 10c c9 118 cb 11a cd*2 10e 110 143 147 d3*2
    150 d6*2 158 16e da 170 dc*2 162 df 155 e1*2 103 e4 13a 107 e7 10d e9 119 eb 11b ed*2 10f 111
    144 148 f3*2 151 f6*2 159 16f fa 171 fc*2 163 2d9"),
  (["cp1251", "windows_1251"],
    "402*2 201a 453 201e 2026 2020*2 20ac 2030 409 2039 40a 40c 40b 40f 452 2018*2 201c*2 2022
    2013*2 x 2122 459 203a 45a 45c 45b 45f a0 40e 45e 408 a4 490 a6*2 401 a9 404 ab*4 407 b0*2 406
    456 491 b5*3 451 2116 454 bb 458 405 455 457 410*40"),
  (["cp1252", "windows_1252"],
    "20ac x 201a 192 201e 2026 2020*2 2c6 2030 160 2039 152 x 17d x*2 2018*2 201c*2 2022 2013*2 2dc
    2122 161 203a 153 x 17e 178 a0*60"),
  (["cp1253", "windows_1253"],
    "20ac x 201a 192 201e 2026 2020*2 x 2030 x 2039 x*5 2018*2 201c*2 2022 2013*2 x 2122 x 203a x*4
    a0 385*2 a3*7 x ab*4 2015 b0*4 384 b5*3 388*3 bb 38c bd 38e*14 x 3a3*2c x"),
  (["cp1254", "windows_1254"],
    "20ac x 201a 192 201e 2026 2020*2 2c6 2030 160 2039 152 x*4 2018*2 201c*2 2022 2013*2 2dc 2122
    161 203a 153 x*2 178 a0*30 11e d1*c 130 15e df*11 11f f1*c 131 15f ff"),
  (["cp1255", "windows_1255"],
    "20ac x 201a 192 201e 2026 2020*2 2c6 2030 x 2039 x*5 2018*2 201c*2 2022 2013*2 2dc 2122 x 203a
    x*4 a0*4 20aa a5*5 d7 ab*f f7 bb*5 5b0*a x 5bb*9 5f0*5 x*7 5d0*1b x*2 200e*2 x"),
  (["cp1256", "windows_1256"],
    "20ac 67e 201a 192 201e 2026 2020*2 2c6 2030 679 2039 152 686 698 688 6af 2018*2 201c*2 2022
    2013*2 6a9 2122 691 203a 153 200c*2 6ba a0 60c a2*8 6be ab*f 61b bb*4 61f 6c1 621*16 d7 637*4
    640*4 e0 644 e2 645*4 e7*5 649*2 ee*2 64b*4 f4 64f*2 f7 651 f9 652 fb*2 200e*2 6d2"),
  (["cp1257", "windows_1257"],
    "20ac x 201a x 201e 2026 2020*2 x 2030 x 2039 x a8 2c7 b8 x 2018*2 201c*2 2022 2013*2 x 2122 x
    203a x af 2db x a0 x a2*3 x a6*2 d8 a9 156 ab*4 c6 b0*8 f8 b9 157 bb*4 e6 104 12e 100 106 c4*2
    118 112 10c c9 179 116 122 136 12a 13b 160 143 145 d3 14c d5*3 172 141 15a 16a dc 17b 17d df
    105 12f 101 107 e4*2 119 113 10d e9 17a 117 123 137 12b 13c 161 144 146 f3 14d f5*3 173 142
    15b 16b fc 17c 17e 2d9"),
  (["cp1258", "windows_1258"],
    "20ac x 201a 192 201e 2026 2020*2 2c6 2030 x 2039 152 x*4 2018*2 201c*2 2022 2013*2 2dc 2122 x
    203a 153 x*2 178 a0*23 102 c4*8 300 cd*3 110 d1 309 d3*2 1a0 d6*7 1af 303 df*4 103 e4*8 301
    ed*3 111 f1 323 f3*2 1a1 f6*7 1b0 20ab ff"),
  (["cp154", "csptcp154", "cyrillic_asian", "pt154", "ptcp154"],
    "496 492 4ee 493 201e 2026 4b6 4ae 4b2 4af 4a0 4e2 4a2 49a 4ba 4b8 497 2018*2 201c*2 2022
    2013*2 4b3 4b7 4a1 4e3 4a3 49b 4bb 4b9 a0 40e 45e 408 4e8 498 4b0 a7 401 a9 4d8 ab*2 4ef ae
    49c b0 4b1 406 456 499 4e9 b6*2 451 2116 4d9 bb 458 4aa*2 49d 410*40"),
  (["cp437", "cspc8codepage437", "ibm437"],
    "c7 fc e9 e2 e4 e0 e5 e7 ea*2 e8 ef ee ec c4*2 c9 e6 c6 f4 f6 f2 fb f9 ff d6 dc a2*2 a5 20a7
    192 e1 ed f3 fa f1 d1 aa ba bf 2310 ac bd bc a1 ab bb 2591*3 2502 2524 2561*2 2556 2555 2563
    2551 2557 255d 255c 255b 2510 2514 2534 252c 251c 2500 253c 255e*2 255a 2554 2569 2566 2560
    2550 256c 2567*2 2564*2 2559 2558 2552*2 256b 256a 2518 250c 2588 2584 258c 2590 2580 3b1 df
    393 3c0 3a3 3c3 b5 3c4 3a6 398 3a9 3b4 221e 3c6 3b5 2229 2261 b1 2265 2264 2320*2 f7 2248 b0
    2219 b7 221a 207f b2 25a0 a0"),
  (["cp720"],
    "80*2 e9 e2 84 e0 86 e7 ea*2 e8 ef ee 8d*4 651*2 f4 a4 640 fb f9 621*4 a3 625*11 ab bb 2591*3
    2502 2524 2561*2 2556 2555 2563 2551 2557 255d 255c 255b 2510 2514 2534 252c 251c 2500 253c
    255e*2 255a 2554 2569 2566 2560 2550 256c 2567*2 2564*2 2559 2558 2552*2 256b 256a 2518 250c
    2588 2584 258c 2590 2580 636*5 641 b5 642*9 2261 64b*6 2248 b0 2219 b7 221a 207f b2 25a0 a0"),
  (["cp737"],
    "391*11 3a3*7 3b1*11 3c3 3c2 3c4*5 2591*3 2502 2524 2561*2 2556 2555 2563 2551 2557 255d 255c
    255b 2510 2514 2534 252c 251c 2500 253c 255e*2 255a 2554 2569 2566 2560 2550 256c 2567*2
    2564*2 2559 2558 2552*2 256b 256a 2518 250c 2588 2584 258c 2590 2580 3c9 3ac*3 3ca 3af 3cc*2
    3cb 3ce 386 388*3 38c 38e*2 b1 2265 2264 3aa*2 f7 2248 b0 2219 b7 221a 207f b2 25a0 a0"),
  (["cp775", "cspc775baltic", "ibm775"],
    "106 fc e9 101 e4 123 e5 107 142 113 156*2 12b 179 c4*2 c9 e6 c6 14d f6 122 a2 15a*2 d6 dc f8
    a3 d8 d7 a4 100 12a f3 17b*2 17a 201d a6 a9 ae ac bd bc 141 ab bb 2591*3 2502 2524 104 10c 118
    116 2563 2551 2557 255d 12e 160 2510 2514 2534 252c 251c 2500 253c 172 16a 255a 2554 2569 2566
    2560 2550 256c 17d 105 10d 119 117 12f 161 173 16b 17e 2518 250c 2588 2584 258c 2590 2580 d3
    df 14c 143 f5 d5 b5 144 136*2 13b*2 146 112 145 2019 ad b1 201c be b6 a7 f7 201e b0 2219 b7 b9
    b3 b2 25a0 a0"),
  (["cp850", "cspc850multilingual", "ibm850"],
    "c7 fc e9 e2 e4 e0 e5 e7 ea*2 e8 ef ee ec c4*2 c9 e6 c6 f4 f6 f2 fb f9 ff d6 dc f8 a3 d8 d7 192
    e1 ed f3 fa f1 d1 aa ba bf ae ac bd bc a1 ab bb 2591*3 2502 2524 c1*2 c0 a9 2563 2551 2557
    255d a2 a5 2510 2514 2534 252c 251c 2500 253c e3 c3 255a 2554 2569 2566 2560 2550 256c a4 f0
    d0 ca*2 c8 131 cd*3 2518 250c 2588 2584 a6 cc 2580 d3 df d4 d2 f5 d5 b5 fe de da*2 d9 fd dd af
    b4 ad b1 2017 be b6 a7 f7 b8 b0 a8 b7 b9 b3 b2 25a0 a0"),
  (["cp852", "cspcp852", "ibm852"],
    "c7 fc e9 e2 e4 16f 107 e7 142 eb 150*2 ee 179 c4 106 c9 139*2 f4 f6 13d*2 15a*2 d6 dc 164*2
    141 d7 10d e1 ed f3 fa 104*2 17d*2 118*2 ac 17a 10c 15f ab bb 2591*3 2502 2524 c1*2 11a 15e
    2563 2551 2557 255d 17b*2 2510 2514 2534 252c 251c 2500 253c 102*2 255a 2554 2569 2566 2560
    2550 256c a4 111 110 10e cb 10f 147 cd*2 11b 2518 250c 2588 2584 162 16e 2580 d3 df d4 143*2
    148 160*2 154 da 155 170 fd dd 163 b4 ad 2dd 2db 2c7 2d8 a7 f7 b8 b0 a8 2d9 171 158*2 25a0 a0"),
  (["cp855", "csibm855", "ibm855"],
    "452 402 453 403 451 401 454 404 455 405 456 406 457 407 458 408 459 409 45a 40a 45b 40b 45c
    40c 45e 40e 45f 40f 44e 42e 44a 42a 430 410 431 411 446 426 434 414 435 415 444 424 433 413 ab
    bb 2591*3 2502 2524 445 425 438 418 2563 2551 2557 255d 439 419 2510 2514 2534 252c 251c 2500
    253c 43a 41a 255a 2554 2569 2566 2560 2550 256c a4 43b 41b 43c 41c 43d 41d 43e 41e 43f 2518
    250c 2588 2584 41f 44f 2580 42f 440 420 441 421 442 422 443 423 436 416 432 412 44c 42c 2116
    ad 44b 42b 437 417 448 428 44d 42d 449 429 447 427 a7 25a0 a0"),
  (["cp856"],
    "5d0*1b x a3 x d7 x*a ae ac bd bc x ab bb 2591*3 2502 2524 x*3 a9 2563 2551 2557 255d a2 a5
    2510 2514 2534 252c 251c 2500 253c x*2 255a 2554 2569 2566 2560 2550 256c a4 x*9 2518 250c
    2588 2584 a6 x 2580 x*6 b5 x*7 af b4 ad b1 2017 be b6 a7 f7 b8 b0 a8 b7 b9 b3 b2 25a0 a0"),
  (["cp857", "csibm857", "ibm857"],
    "c7 fc e9 e2 e4 e0 e5 e7 ea*2 e8 ef ee 131 c4*2 c9 e6 c6 f4 f6 f2 fb f9 130 d6 dc f8 a3 d8
    15e*2 e1 ed f3 fa f1 d1 11e*2 bf ae ac bd bc a1 ab bb 2591*3 2502 2524 c1*2 c0 a9 2563 2551
    2557 255d a2 a5 2510 2514 2534 252c 251c 2500 253c e3 c3 255a 2554 2569 2566 2560 2550 256c a4
    ba aa ca*2 c8 x cd*3 2518 250c 2588 2584 a6 cc 2580 d3 df d4 d2 f5 d5 b5 x d7 da*2 d9 ec ff af
    b4 ad b1 x be b6 a7 f7 b8 b0 a8 b7 b9 b3 b2 25a0 a0"),
  (["cp858", "csibm858", "ibm858"],
    "c7 fc e9 e2 e4 e0 e5 e7 ea*2 e8 ef ee ec c4*2 c9 e6 c6 f4 f6 f2 fb f9 ff d6 dc f8 a3 d8 d7 192
    e1 ed f3 fa f1 d1 aa ba bf ae ac bd bc a1 ab bb 2591*3 2502 2524 c1*2 c0 a9 2563 2551 2557
    255d a2 a5 2510 2514 2534 252c 251c 2500 253c e3 c3 255a 2554 2569 2566 2560 2550 256c a4 f0
    d0 ca*2 c8 20ac cd*3 2518 250c 2588 2584 a6 cc 2580 d3 df d4 d2 f5 d5 b5 fe de da*2 d9 fd dd
    af b4 ad b1 2017 be b6 a7 f7 b8 b0 a8 b7 b9 b3 b2 25a0 a0"),
  (["cp860", "csibm860", "ibm860"],
    "c7 fc e9 e2*2 e0 c1 e7 ea ca e8 cd d4 ec c3 c2 c9 c0 c8 f4*2 f2 da f9 cc d5 dc a2*2 d9 20a7 d3
    e1 ed f3 fa f1 d1 aa ba bf d2 ac bd bc a1 ab bb 2591*3 2502 2524 2561*2 2556 2555 2563 2551
    2557 255d 255c 255b 2510 2514 2534 252c 251c 2500 253c 255e*2 255a 2554 2569 2566 2560 2550
    256c 2567*2 2564*2 2559 2558 2552*2 256b 256a 2518 250c 2588 2584 258c 2590 2580 3b1 df 393
    3c0 3a3 3c3 b5 3c4 3a6 398 3a9 3b4 221e 3c6 3b5 2229 2261 b1 2265 2264 2320*2 f7 2248 b0 2219
    b7 221a 207f b2 25a0 a0"),
  (["cp861", "cp_is", "csibm861", "ibm861"],
    "c7 fc e9 e2 e4 e0 e5 e7 ea*2 e8 d0 f0 de c4*2 c9 e6 c6 f4 f6 fe fb dd fd d6 dc f8 a3 d8 20a7
    192 e1 ed f3 fa c1 cd d3 da bf 2310 ac bd bc a1 ab bb 2591*3 2502 2524 2561*2 2556 2555 2563
    2551 2557 255d 255c 255b 2510 2514 2534 252c 251c 2500 253c 255e*2 255a 2554 2569 2566 2560
    2550 256c 2567*2 2564*2 2559 2558 2552*2 256b 256a 2518 250c 2588 2584 258c 2590 2580 3b1 df
    393 3c0 3a3 3c3 b5 3c4 3a6 398 3a9 3b4 221e 3c6 3b5 2229 2261 b1 2265 2264 2320*2 f7 2248 b0
    2219 b7 221a 207f b2 25a0 a0"),
  (["cp862", "cspc862latinhebrew", "ibm862"],
    "5d0*1b a2*2 a5 20a7 192 e1 ed f3 fa f1 d1 aa ba bf 2310 ac bd bc a1 ab bb 2591*3 2502 2524
    2561*2 2556 2555 2563 2551 2557 255d 255c 255b 2510 2514 2534 252c 251c 2500 253c 255e*2 255a
    2554 2569 2566 2560 2550 256c 2567*2 2564*2 2559 2558 2552*2 256b 256a 2518 250c 2588 2584
    258c 2590 2580 3b1 df 393 3c0 3a3 3c3 b5 3c4 3a6 398 3a9 3b4 221e 3c6 3b5 2229 2261 b1 2265
    2264 2320*2 f7 2248 b0 2219 b7 221a 207f b2 25a0 a0"),
  (["cp863", "csibm863", "ibm863"],
    "c7 fc e9 e2 c2 e0 b6 e7 ea*2 e8 ef ee 2017 c0 a7 c9 c8 ca f4 cb cf fb f9 a4 d4 dc a2*2 d9 db
    192 a6 b4 f3 fa a8 b8 b3 af ce 2310 ac bd bc be ab bb 2591*3 2502 2524 2561*2 2556 2555 2563
    2551 2557 255d 255c 255b 2510 2514 2534 252c 251c 2500 253c 255e*2 255a 2554 2569 2566 2560
    2550 256c 2567*2 2564*2 2559 2558 2552*2 256b 256a 2518 250c 2588 2584 258c 2590 2580 3b1 df
    393 3c0 3a3 3c3 b5 3c4 3a6 398 3a9 3b4 221e 3c6 3b5 2229 2261 b1 2265 2264 2320*2 f7 2248 b0
    2219 b7 221a 207f b2 25a0 a0"),
  (["cp865", "csibm865", "ibm865"],
    "c7 fc e9 e2 e4 e0 e5 e7 ea*2 e8 ef ee ec c4*2 c9 e6 c6 f4 f6 f2 fb f9 ff d6 dc f8 a3 d8 20a7
    192 e1 ed f3 fa f1 d1 aa ba bf 2310 ac bd bc a1 ab a4 2591*3 2502 2524 2561*2 2556 2555 2563
    2551 2557 255d 255c 255b 2510 2514 2534 252c 251c 2500 253c 255e*2 255a 2554 2569 2566 2560
    2550 256c 2567*2 2564*2 2559 2558 2552*2 256b 256a 2518 250c 2588 2584 258c 2590 2580 3b1 df
    393 3c0 3a3 3c3 b5 3c4 3a6 398 3a9 3b4 221e 3c6 3b5 2229 2261 b1 2265 2264 2320*2 f7 2248 b0
    2219 b7 221a 207f b2 25a0 a0"),
  (["cp866", "csibm866", "ibm866"],
    "410*30 2591*3 2502 2524 2561*2 2556 2555 2563 2551 2557 255d 255c 255b 2510 2514 2534 252c
    251c 2500 253c 255e*2 255a 2554 2569 2566 2560 2550 256c 2567*2 2564*2 2559 2558 2552*2 256b
    256a 2518 250c 2588 2584 258c 2590 2580 440*10 401 451 404 454 407 457 40e 45e b0 2219 b7 221a
    2116 a4 25a0 a0"),
  (["cp869", "cp_gr", "csibm869", "ibm869"],
    "x*6 386 x b7 ac a6 2018*2 388 2015 389*2 3aa 38c x*2 38e 3ab a9 38f b2*2 3ac a3 3ad*3 3ca 390
    3cc*2 391*7 bd 398*2 ab bb 2591*3 2502 2524 39a*4 2563 2551 2557 255d 39e*2 2510 2514 2534
    252c 251c 2500 253c 3a0*2 255a 2554 2569 2566 2560 2550 256c 3a3*7 3b1*3 2518 250c 2588 2584
    3b4*2 2580 3b6*c 3c3 3c2 3c4 384 ad b1 3c5*3 a7 3c8 385 b0 a8 3c9 3cb 3b0 3ce 25a0 a0"),
  (["cp874"],
    "20ac x*4 2026 x*b 2018*2 201c*2 2022 2013*2 x*8 a0 e01*3a x*4 e3f*1d x*4"),
  (["csisolatin2", "iso8859_2", "iso_8859_2", "iso_8859_2_1987", "iso_ir_101", "l2", "latin2"],
    "80*21 104 2d8 141 a4 13d 15a a7*2 160 15e 164 179 ad 17d 17b b0 105 2db 142 b4 13e 15b 2c7 b8
    161 15f 165 17a 2dd 17e 17c 154 c1*2 102 c4 139 106 c7 10c c9 118 cb 11a cd*2 10e 110 143 147
    d3*2 150 d6*2 158 16e da 170 dc*2 162 df 155 e1*2 103 e4 13a 107 e7 10d e9 119 eb 11b ed*2 10f
    111 144 148 f3*2 151 f6*2 159 16f fa 171 fc*2 163 2d9"),
  (["csisolatin3", "iso8859_3", "iso_8859_3", "iso_8859_3_1988", "iso_ir_109", "l3", "latin3"],
    "80*21 126 2d8 a3*2 x 124 a7*2 130 15e 11e 134 ad x 17b b0 127 b2*4 125 b7*2 131 15f 11f 135 bd
    x 17c c0*3 x c4 10a 108 c7*9 x d1*4 120 d6*2 11c d9*4 16c 15c df*4 x e4 10b 109 e7*9 x f1*4
    121 f6*2 11d f9*4 16d 15d 2d9"),
  (["csisolatin4", "iso8859_4", "iso_8859_4", "iso_8859_4_1988", "iso_ir_110", "l4", "latin4"],
    "80*21 104 138 156 a4 128 13b a7*2 160 112 122 166 ad 17d af*2 105 2db 157 b4 129 13c 2c7 b8
    161 113 123 167 14a 17e 14b 100 c1*6 12e 10c c9 118 cb 116 cd*2 12a 110 145 14c 136 d4*5 172
    da*3 168 16a df 101 e1*6 12f 10d e9 119 eb 117 ed*2 12b 111 146 14d 137 f4*5 173 fa*3 169 16b
    2d9"),
  (["csisolatin5", "iso8859_9", "iso_8859_9", "iso_8859_9_1989", "iso_ir_148", "l5", "latin5"],
    "80*50 11e d1*c 130 15e df*11 11f f1*c 131 15f ff"),
  (["csisolatin6", "iso8859_10", "iso_8859_10", "iso_8859_10_1992", "iso_ir_157", "l6",
    "latin6"],
    "80*21 104 112 122 12a 128 136 a7 13b 110 160 166 17d ad 16a 14a b0 105 113 123 12b 129 137 b7
    13c 111 161 167 17e 2015 16b 14b 100 c1*6 12e 10c c9 118 cb 116 cd*4 145 14c d3*4 168 d8 172
    da*6 101 e1*6 12f 10d e9 119 eb 117 ed*4 146 14d f3*4 169 f8 173 fa*5 138"),
  (["csisolatincyrillic", "cyrillic", "iso8859_5", "iso_8859_5", "iso_8859_5_1988",
    "iso_ir_144"],
    "80*21 401*c ad 40e*42 2116 451*c a7 45e*2"),
  (["csisolatingreek", "ecma_118", "elot_928", "greek", "greek8", "iso8859_7", "iso_8859_7",
    "iso_8859_7_1987", "iso_ir_126"],
    "80*21 2018*2 a3 20ac 20af a6*4 37a ab*3 x 2015 b0*4 384*3 b7 388*3 bb 38c bd 38e*14 x 3a3*2c x"),
  (["csisolatinhebrew", "hebrew", "iso8859_8", "iso_8859_8", "iso_8859_8_1988", "iso_ir_138"],
    "80*21 x a2*8 d7 ab*f f7 bb*4 x*20 2017 5d0*1b x*2 200e*2 x"),
  (["cskoi8r", "koi8_r"],
    "2500 2502 250c 2510 2514 2518 251c 2524 252c 2534 253c 2580 2584 2588 258c 2590*4 2320 25a0
    2219*2 2248 2264*2 a0 2321 b0 b2 b7 f7 2550*3 451 2553*f 401 2562*b a9 44e 430*2 446 434*2 444
    433 445 438*8 44f 440*4 436 432 44c 44b 437 448 44d 449 447 44a 42e 410*2 426 414*2 424 413
    425 418*8 42f 420*4 416 412 42c 42b 417 428 42d 429 427 42a"),
  (["iso8859_11", "iso_8859_11", "iso_8859_11_2001", "thai"],
    "80*21 e01*3a x*4 e3f*1d x*4"),
  (["iso8859_13", "iso_8859_13", "l7", "latin7"],
    "80*21 201d a2*3 201e a6*2 d8 a9 156 ab*4 c6 b0*4 201c b5*3 f8 b9 157 bb*4 e6 104 12e 100 106
    c4*2 118 112 10c c9 179 116 122 136 12a 13b 160 143 145 d3 14c d5*3 172 141 15a 16a dc 17b 17d
    df 105 12f 101 107 e4*2 119 113 10d e9 17a 117 123 137 12b 13c 161 144 146 f3 14d f5*3 173 142
    15b 16b fc 17c 17e 2019"),
  (["iso8859_14", "iso_8859_14", "iso_8859_14_1998", "iso_celtic", "iso_ir_199", "l8", "latin8"],
    "80*21 1e02*2 a3 10a*2 1e0a a7 1e80 a9 1e82 1e0b 1ef2 ad*2 178 1e1e*2 120*2 1e40*2 b6 1e56 1e81
    1e57 1e83 1e60 1ef3 1e84*2 1e61 c0*10 174 d1*6 1e6a d8*6 176 df*11 175 f1*6 1e6b f8*6 177 ff"),
  (["iso8859_15", "iso_8859_15", "l9", "latin9"],
    "80*24 20ac a5 160 a7 161 a9*b 17d b5*3 17e b9*3 152*2 178 bf*41"),
  (["iso8859_16", "iso_8859_16", "iso_8859_16_2001", "iso_ir_226", "l10", "latin10"],
    "80*21 104*2 141 20ac 201e 160 a7 161 a9 218 ab 179 ad 17a*2 b0*2 10c 142 17d 201d b6*2 17e 10d
    219 bb 152*2 178 17c c0*3 102 c4 106 c6*a 110 143 d2*3 150 d6 15a 170 d9*4 118 21a df*4 103 e4
    107 e6*a 111 144 f2*3 151 f6 15b 171 f9*4 119 21b ff"),
  (["iso_ir_166", "tis620", "tis_620", "tis_620_0", "tis_620_2529_0", "tis_620_2529_1"],
    "80*20 x e01*3a x*4 e3f*1d x*4"),
  (["koi8_t"],
    "49b 493 201a 492 201e 2026 2020*2 x 2030 4b3 2039 4b2 4b7 4b6 x 49a 2018*2 201c*2 2022 2013*2
    x 2122 x 203a x*5 4ef 4ee 451 a4 4e3 a6*2 x*3 ab*4 x b0*3 401 x 4e2 b6*2 x 2116 x bb x*3 a9
    44e 430*2 446 434*2 444 433 445 438*8 44f 440*4 436 432 44c 44b 437 448 44d 449 447 44a 42e
    410*2 426 414*2 424 413 425 418*8 42f 420*4 416 412 42c 42b 417 428 42d 429 427 42a"),
  (["koi8_u"],
    "2500 2502 250c 2510 2514 2518 251c 2524 252c 2534 253c 2580 2584 2588 258c 2590*4 2320 25a0
    2219*2 2248 2264*2 a0 2321 b0 b2 b7 f7 2550*3 451 454 2554 456*2 2557*5 491 255d*5 401 404
    2563 406*2 2566*5 490 256c a9 44e 430*2 446 434*2 444 433 445 438*8 44f 440*4 436 432 44c 44b
    437 448 44d 449 447 44a 42e 410*2 426 414*2 424 413 425 418*8 42f 420*4 416 412 42c 42b 417
    428 42d 429 427 42a"),
  (["kz1048", "kz_1048", "rk1048", "strk1048_2002"],
    "402*2 201a 453 201e 2026 2020*2 20ac 2030 409 2039 40a 49a 4ba 40f 452 2018*2 201c*2 2022
    2013*2 x 2122 459 203a 45a 49b 4bb 45f a0 4b0*2 4d8 a4 4e8 a6*2 401 a9 492 ab*4 4ae b0*2 406
    456 4e9 b5*3 451 2116 493 bb 4d9 4a2*2 4af 410*40"),
  (["mac_centeuro", "mac_latin2", "maccentraleurope", "maclatin2"],
    "c4 100*2 c9 104 d6 dc e1 105 10c e4 10d 106*2 e9 179*2 10e ed 10f 112*2 116 f3 117 f4 f6 f5 fa
    11a*2 fc 2020 b0 118 a3 a7 2022 b6 df ae a9 2122 119 a8 2260 123 12e*2 12a 2264*2 12b 136 2202
    2211 142 13b*4 139*2 145*2 143 ac 221a 144 147 2206 ab bb 2026 a0 148 150 d5 151 14c 2013*2
    201c*2 2018*2 f7 25ca 14d 154*2 158 2039*2 159 156*2 160 201a 201e 161 15a*2 c1 164*2 cd 17d*2
    16a d3*2 16b 16e da 16f*5 dd fd 137 17b 141 17c 122 2c7"),
  (["mac_croatian"],
    "c4*2 c7 c9 d1 d6 dc e1 e0 e2 e4 e3 e5 e7 e9 e8 ea*2 ed ec ee*2 f1 f3 f2 f4 f6 f5 fa f9 fb*2
    2020 b0 a2*2 a7 2022 b6 df ae 160 2122 b4 a8 2260 17d d8 221e b1 2264*2 2206 b5 2202 2211 220f
    161 222b aa ba 3a9 17e f8 bf a1 ac 221a 192 2248 106 ab 10c 2026 a0 c0 c3 d5 152*2 110 2014
    201c*2 2018*2 f7 25ca f8ff a9 2044 20ac 2039*2 c6 bb 2013 b7 201a 201e 2030 c2 107 c1 10d c8
    cd*3 cc d3*2 111 d2 da*2 d9 131 2c6 2dc af 3c0 cb 2da b8 ca e6 2c7"),
  (["mac_cyrillic", "maccyrillic"],
    "410*20 2020 b0 490 a3 a7 2022 b6 406 ae a9 2122 402 452 2260 403 453 221e b1 2264*2 456 b5 491
    408 404 454 407 457 409 459 40a 45a 458 405 ac 221a 192 2248 2206 ab bb 2026 a0 40b 45b 40c
    45c 455 2013*2 201c*2 2018*2 f7 201e 40e 45e 40f 45f 2116 401 451 44f 430*1f 20ac"),
  (["mac_greek", "macgreek"],
    "c4 b9 b2 c9 b3 d6 dc 385 e0 e2 e4 384 a8 e7 e9 e8 ea*2 a3 2122 ee*2 2022 bd 2030 f4 f6 a6 20ac
    f9 fb*2 2020 393*2 398 39b 39e 3a0 df ae a9 3a3 3aa a7 2260 b0 b7 391 b1 2264*2 a5 392 395*3
    399*2 39c 3a6 3ab 3a8*2 3ac 39d ac 39f 3a1 2248 3a4 ab bb 2026 a0 3a5 3a7 386 388 153 2013
    2015 201c*2 2018*2 f7 389*2 38c 38e 3ad*3 3cc 38f 3cd 3b1*2 3c8 3b4*2 3c6 3b3 3b7 3b9 3be
    3ba*4 3bf*2 3ce 3c1 3c3*2 3b8 3c9 3c2 3c7 3c5 3b6 3ca*2 390 3b0 ad"),
  (["mac_iceland", "maciceland"],
    "c4*2 c7 c9 d1 d6 dc e1 e0 e2 e4 e3 e5 e7 e9 e8 ea*2 ed ec ee*2 f1 f3 f2 f4 f6 f5 fa f9 fb*2 dd
    b0 a2*2 a7 2022 b6 df ae a9 2122 b4 a8 2260 c6 d8 221e b1 2264*2 a5 b5 2202 2211 220f 3c0 222b
    aa ba 3a9 e6 f8 bf a1 ac 221a 192 2248 2206 ab bb 2026 a0 c0 c3 d5 152*2 2013*2 201c*2 2018*2
    f7 25ca ff 178 2044 20ac d0 f0 de fe fd b7 201a 201e 2030 c2 ca c1 cb c8 cd*3 cc d3*2 f8ff d2
    da*2 d9 131 2c6 2dc af 2d8*3 b8 2dd 2db 2c7"),
  (["mac_roman", "macintosh", "macroman"],
    "c4*2 c7 c9 d1 d6 dc e1 e0 e2 e4 e3 e5 e7 e9 e8 ea*2 ed ec ee*2 f1 f3 f2 f4 f6 f5 fa f9 fb*2
    2020 b0 a2*2 a7 2022 b6 df ae a9 2122 b4 a8 2260 c6 d8 221e b1 2264*2 a5 b5 2202 2211 220f 3c0
    222b aa ba 3a9 e6 f8 bf a1 ac 221a 192 2248 2206 ab bb 2026 a0 c0 c3 d5 152*2 2013*2 201c*2
    2018*2 f7 25ca ff 178 2044 20ac 2039*2 fb01*2 2021 b7 201a 201e 2030 c2 ca c1 cb c8 cd*3 cc
    d3*2 f8ff d2 da*2 d9 131 2c6 2dc af 2d8*3 b8 2dd 2db 2c7"),
  (["mac_romanian"],
    "c4*2 c7 c9 d1 d6 dc e1 e0 e2 e4 e3 e5 e7 e9 e8 ea*2 ed ec ee*2 f1 f3 f2 f4 f6 f5 fa f9 fb*2
    2020 b0 a2*2 a7 2022 b6 df ae a9 2122 b4 a8 2260 102 218 221e b1 2264*2 a5 b5 2202 2211 220f
    3c0 222b aa ba 3a9 103 219 bf a1 ac 221a 192 2248 2206 ab bb 2026 a0 c0 c3 d5 152*2 2013*2
    201c*2 2018*2 f7 25ca ff 178 2044 20ac 2039*2 21a*2 2021 b7 201a 201e 2030 c2 ca c1 cb c8 cd*3
    cc d3*2 f8ff d2 da*2 d9 131 2c6 2dc af 2d8*3 b8 2dd 2db 2c7"),
  (["mac_turkish", "macturkish"],
    "c4*2 c7 c9 d1 d6 dc e1 e0 e2 e4 e3 e5 e7 e9 e8 ea*2 ed ec ee*2 f1 f3 f2 f4 f6 f5 fa f9 fb*2
    2020 b0 a2*2 a7 2022 b6 df ae a9 2122 b4 a8 2260 c6 d8 221e b1 2264*2 a5 b5 2202 2211 220f 3c0
    222b aa ba 3a9 e6 f8 bf a1 ac 221a 192 2248 2206 ab bb 2026 a0 c0 c3 d5 152*2 2013*2 201c*2
    2018*2 f7 25ca ff 178 11e*2 130*2 15e*2 2021 b7 201a 201e 2030 c2 ca c1 cb c8 cd*3 cc d3*2
    f8ff d2 da*2 d9 f8a0 2c6 2dc af 2d8*3 b8 2dd 2db 2c7"),
  (["palmos"],
    "20ac 81 201a 192 201e 2026 2020*2 2c6 2030 160 2039 152 2666 2663 2665 2660 2018*2 201c*2 2022
    2013*2 2dc 2122 161 9b 153 9d*2 178 a0*60")]

/-- Names of sets that have no character beyond ASCII, as far as single bytes go. -/
def asciiNames : List String :=
  ["ansi_x3_4_1968", "ascii", "cp367", "cp65001", "csascii",
  "csiso2022jp", "hz", "hz_gb", "hz_gb_2312", "hzgb", "ibm367", "iso2022_jp", "iso2022_jp_1",
  "iso2022_jp_2", "iso2022_jp_2004", "iso2022_jp_3", "iso2022_jp_ext", "iso2022jp", "iso2022jp_1",
  "iso2022jp_2", "iso2022jp_2004", "iso2022jp_3", "iso2022jp_ext", "iso646_us", "iso_2022_jp",
  "iso_2022_jp_1", "iso_2022_jp_2", "iso_2022_jp_2004", "iso_2022_jp_3", "iso_2022_jp_ext",
  "iso_ir_6", "u8", "us", "us_ascii", "utf", "utf8", "utf8_ucs2", "utf8_ucs4",
  "utf_8", "utf_8_sig"]

/-- Names of the same sets which are known with their points only. -/
def pointedNames : List String := ["ansi_x3.4_1986", "iso_646.irv_1991"]

/-- Names of sets in which each byte is the code of its character. -/
def latinNames : List String :=
  ["charmap", "cp819", "csisolatin1", "ibm819", "iso8859", "iso8859_1", "iso_8859_1",
  "iso_8859_1_1987", "iso_ir_100", "l1", "latin", "latin1", "latin_1", "raw_unicode_escape",
  "unicode_escape"]

/-- Names of sets in which characters take several bytes. -/
def multibyteNames : List String :=
  ["big5", "big5_hkscs", "big5_tw", "big5hkscs", "chinese", "cp1361", "cp932", "cp936", "cp949",
  "cp950", "csbig5", "csiso2022kr", "csiso58gb231280", "csshiftjis", "euc_cn", "euc_jis2004",
  "euc_jis_2004", "euc_jisx0213", "euc_jp", "euc_kr", "euccn", "eucgb2312_cn", "eucjis2004",
  "eucjisx0213", "eucjp", "euckr", "gb18030", "gb18030_2000", "gb2312", "gb2312_1980",
  "gb2312_80", "gbk", "hkscs", "iso2022_kr", "iso2022kr", "iso_2022_kr", "iso_ir_58", "jisx0213",
  "johab", "korean", "ks_c_5601", "ks_c_5601_1987", "ks_x_1001", "ksc5601", "ksx1001", "ms1361",
  "ms932", "ms936", "ms949", "ms950", "ms_kanji", "mskanji", "s_jis", "s_jis_2004", "s_jisx0213",
  "shift_jis", "shift_jis_2004", "shift_jisx0213", "shiftjis", "shiftjis2004", "shiftjisx0213",
  "sjis", "sjis_2004", "sjisx0213", "u16", "u32", "u7", "u_jis", "uhc", "ujis",
  "unicode_1_1_utf_7", "unicodebigunmarked", "unicodelittleunmarked", "utf16", "utf32", "utf7",
  "utf_16", "utf_16_be", "utf_16_le", "utf_16be", "utf_16le", "utf_32", "utf_32_be", "utf_32_le",
  "utf_32be", "utf_32le", "utf_7", "x_mac_japanese", "x_mac_korean", "x_mac_simp_chinese",
  "x_mac_trad_chinese"]

/-- Names of sets that do not keep ASCII. -/
def unsuitableNames : List String :=
  ["cp037", "cp1026", "cp1140", "cp273", "cp424", "cp500", "cp864", "cp875", "csibm037",
  "csibm1026", "csibm273", "csibm424", "csibm500", "csibm864", "ebcdic_cp_be", "ebcdic_cp_ca",
  "ebcdic_cp_ch", "ebcdic_cp_he", "ebcdic_cp_nl", "ebcdic_cp_us", "ebcdic_cp_wt", "ibm037",
  "ibm039", "ibm1026", "ibm1140", "ibm273", "ibm424", "ibm500", "ibm864", "mac_arabic",
  "mac_farsi"]

/-- Names that stand for no set of characters, with what is said about them. -/
def refusals : List (String × String) := [
  ("idna",
    "decoding with 'idna' codec failed (UnicodeError: Unsupported error handling replace)"),
  ("punycode",
    "'ascii' codec can't decode byte 0x80 in position 82: ordinal not in range(128)"),
  ("undefined",
    "decoding with 'undefined' codec failed (UnicodeError: undefined encoding)")]

/-- The codes that a word of a set stands for. -/
def codesOfWord (word : List Char) : List (Option Nat) :=
  let start := word.takeWhile (· != '*')
  let count := if start.length == word.length then 1
    else Unicode.CodeSet.hexNumber (word.drop (start.length + 1))
  if start == ['x'] then List.replicate count none
  else (List.range count).map fun i => some (Unicode.CodeSet.hexNumber start + i)

def codesOfText (s : String) : Array (Option Nat) :=
  ((Text.wordsFrom s.toList).flatMap codesOfWord).toArray

/-- A name in lower case, with one underscore for each stretch of other signs than letters, digits and
points. -/
def normalName (name : List Char) : String :=
  let isKept (c : Char) : Bool := c.isAlphanum || c == '.'
  let pieces := (name.map Char.toLower).splitBy fun a b => isKept a == isKept b
  let words := pieces.filter fun p => p.any isKept
  "_".intercalate (words.map String.ofList)

/-- The set of a name, points being read as underscores where the name with points is not known. -/
def named (name : List Char) : NamedCharset :=
  let pointed := normalName name
  let name := String.ofList (pointed.toList.map fun c => if c == '.' then '_' else c)
  if asciiNames.contains name || pointedNames.contains pointed then .known .ascii
  else if latinNames.contains name then .known .latin
  else if multibyteNames.contains name then .multibyte
  else if unsuitableNames.contains name then .unsuitable
  else
    match singleByte.find? fun s => s.1.contains name with
    | some (_, codes) => .known (.upper (codesOfText codes))
    | none =>
      match refusals.lookup name with
      | some message => .refused message
      | none => .unknown

end Charset

end Highlighter.Markup
