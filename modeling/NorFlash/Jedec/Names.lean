/-!
# Manufacturer names

The manufacturer names of the first bank of the JEDEC register JEP106, by the seven-bit code of an
identification byte without its parity bit.
-/

namespace NorFlash

namespace Jedec

/-- The codes of the first bank that have a name, in ascending order. -/
def bank : List (Nat × String) :=
  [(1, "AMD"), (2, "AMI"), (3, "Fairchild"), (4, "Fujitsu"), (5, "GTE"), (6, "Harris"),
   (7, "Hitachi"), (8, "Inmos"), (9, "Intel"), (10, "I.T.T."), (11, "Intersil"),
   (12, "Monolithic Memories"), (13, "Mostek"), (14, "Freescale (Motorola)"), (15, "National"),
   (16, "NEC"), (17, "RCA"), (18, "Raytheon"), (19, "Synaptics"), (20, "Seeq"),
   (21, "NXP (Philips)"), (22, "Synertek"), (23, "Texas Instruments"),
   (24, "Kioxia Corporation"), (25, "Xicor"), (26, "Zilog"), (27, "Eurotechnique"),
   (28, "Mitsubishi"), (29, "Lucent (AT&T)"), (30, "Exel"), (31, "Atmel"),
   (32, "STMicroelectronics"), (33, "Lattice Semi."), (34, "NCR"),
   (35, "Wafer Scale Integration"), (36, "IBM"), (37, "Tristar"), (38, "Visic"),
   (39, "Intl. CMOS Technology"), (40, "SSSI"), (41, "Microchip Technology"), (42, "Ricoh Ltd"),
   (43, "VLSI"), (44, "Micron Technology"), (45, "SK Hynix"), (46, "OKI Semiconductor"),
   (47, "ACTEL"), (48, "Sharp"), (49, "Catalyst"), (50, "Panasonic"), (51, "IDT"),
   (52, "Cypress"), (53, "DEC"), (54, "LSI Logic"), (56, "UTMC"), (57, "Thinking Machine"),
   (58, "Thomson CSF"), (59, "Integrated CMOS (Vertex)"), (60, "Honeywell"), (61, "Tektronix"),
   (62, "Oracle Corporation"), (63, "Silicon Storage Technology"), (64, "ProMos/Mosel Vitelic"),
   (65, "Infineon (Siemens)"), (66, "Macronix"), (67, "Xerox"), (68, "Plus Logic"),
   (69, "Western Digital Technologies Inc"), (70, "Elan Circuit Tech."),
   (71, "European Silicon Str."), (72, "Apple Computer"), (73, "Xilinx"), (74, "Compaq"),
   (75, "Protocol Engines"), (76, "SCI"), (77, "ABLIC"), (78, "Samsung"),
   (79, "I3 Design System"), (80, "Klic"), (81, "Crosspoint Solutions"),
   (82, "Alliance Memory Inc"), (83, "Tandem"), (84, "Hewlett-Packard"),
   (85, "Integrated Silicon Solutions"), (86, "Brooktree"), (87, "New Media"),
   (88, "MHS Electronic"), (89, "Performance Semi."), (90, "Winbond Electronic"),
   (91, "Kawasaki Steel"), (92, "Bright Micro"), (93, "TECMAR"), (94, "Exar"), (95, "PCMCIA"),
   (96, "LG Semi (Goldstar)"), (97, "Northern Telecom"), (98, "Sanyo"),
   (99, "Array Microsystems"), (100, "Crystal Semiconductor"), (101, "Analog Devices"),
   (102, "PMC-Sierra"), (103, "Asparix"), (104, "Convex Computer"),
   (105, "Quality Semiconductor"), (106, "Nimbus Technology"), (107, "Transwitch"),
   (108, "Micronas (ITT Intermetall)"), (109, "Cannon"), (110, "Altera"), (111, "NEXCOM"),
   (113, "Sony"), (114, "Cray Research"), (115, "AMS(Austria Micro)"), (116, "Vitesse"),
   (117, "Aster Electronics"), (118, "Bay Networks (Synoptic)"), (119, "Zentrum/ZMD"),
   (120, "TRW"), (121, "Thesys"), (122, "Solbourne Computer"), (123, "Allied-Signal"),
   (124, "Dialog Semiconductor"), (125, "Media Vision"), (126, "Numonyx Corporation")]

/-- The name registered for a seven-bit code. -/
def registeredName (code : Nat) : Option String :=
  bank.lookup code

end Jedec

end NorFlash
